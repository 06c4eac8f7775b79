import GreenPms.Library.Totals

/-! # The collection ledger

The append-only collection facts of one property, newest first, with the amounts that the
program reads off them: what is refunded and moved out of a share, whether a fact is reversed,
and the collection that a share comes from through any number of reallocations.
-/

namespace GreenPms

open Totals

inductive CollectionFactType where
  | collection | refund | reversal | reallocationIn | reallocationOut
  deriving DecidableEq, Repr

inductive FundsMethod where
  | wecom | bankTransfer | cash | other | reversal
  deriving DecidableEq, Repr

/-- `billId` is the payment bill of the fact, its own or that of its allocation. -/
structure CollectionFact where
  factId : Nat
  orderId : Nat
  factType : CollectionFactType
  amountMinor : Int
  netEffectMinor : Int
  referencesFactId : Option Nat
  reversesFactId : Option Nat
  method : FundsMethod
  billId : Option Nat
  deriving DecidableEq, Repr

def CollectionFact.isShare (f : CollectionFact) : Bool :=
  f.factType = .collection || f.factType = .reallocationIn

def CollectionFact.isDraw (f : CollectionFact) : Bool :=
  f.factType = .refund || f.factType = .reallocationOut

variable (facts : List CollectionFact)

def isReversed (factId : Nat) : Bool := facts.any fun v => v.reversesFactId = some factId

def findFact (factId : Nat) : Option CollectionFact := facts.find? fun f => f.factId = factId

def activeFact (type : CollectionFactType) (r : CollectionFact) : Bool :=
  r.factType = type && !isReversed facts r.factId

def activeTotal (type : CollectionFactType) (p : CollectionFact → Bool) : Int :=
  total (fun r => activeFact facts type r && p r) CollectionFact.amountMinor facts

def refundedMinor (factId : Nat) : Int := activeTotal facts .refund fun r => r.referencesFactId = some factId

/-- `activeRefundedAmount`, which the builders compute apart from the funding source. -/
def activeRefundedAmount (factId : Nat) : Int := refundedMinor facts factId

def movedMinor (type : CollectionFactType) (factId : Nat) : Int :=
  total (fun r => r.factType = type && r.referencesFactId = some factId) CollectionFact.amountMinor facts

def transferredMinor (factId : Nat) : Int := movedMinor facts .reallocationOut factId

/-- What a share still holds while it is not reversed. -/
def balanceMinor (f : CollectionFact) : Int :=
  f.amountMinor - refundedMinor facts f.factId - transferredMinor facts f.factId

def netMinor : Int := total (fun _ => true) CollectionFact.netEffectMinor facts

def activeCollections : Int := activeTotal facts .collection fun _ => true

def activeRefunds : Int := activeTotal facts .refund fun _ => true

def rootCollection : List CollectionFact → Nat → Nat
  | [], factId => factId
  | f :: rest, factId =>
      if f.factId = factId then
        match f.factType, f.referencesFactId with
        | .reallocationIn, some source => rootCollection rest source
        | _, _ => factId
      else rootCollection rest factId

/-- The refunds in force that were drawn from a collection, from whatever share. -/
def drawnFrom (factId : Nat) : Int :=
  activeTotal facts .refund fun r => r.referencesFactId.any fun s => rootCollection facts s = factId

def CollectionFact.NetOk (f : CollectionFact) : Prop :=
  match f.factType with
  | .collection | .reallocationIn => f.netEffectMinor = f.amountMinor
  | .refund | .reallocationOut => f.netEffectMinor = -f.amountMinor
  | .reversal => True

/-- What the program has checked of a fact against the earlier ones. -/
structure Appends (rest : List CollectionFact) (f : CollectionFact) : Prop where
  fresh : ∀ g ∈ rest, g.factId ≠ f.factId
  positive : 0 < f.amountMinor
  net : f.NetOk
  source : f.isDraw = true ∨ f.factType = .reallocationIn →
    ∃ g ∈ rest, f.referencesFactId = some g.factId ∧ g.isShare = true
  root : f.factType = .collection → f.referencesFactId = none
  forward : f.factType ≠ .reversal → f.reversesFactId = none
  reversal : f.factType = .reversal → ∃ g ∈ rest, f.reversesFactId = some g.factId ∧
    (g.factType = .collection ∨ g.factType = .refund) ∧ isReversed rest g.factId = false ∧
    f.netEffectMinor = -g.netEffectMinor

inductive WellFormed : List CollectionFact → Prop
  | nil : WellFormed []
  | cons {f : CollectionFact} {rest : List CollectionFact} : Appends rest f → WellFormed rest →
      WellFormed (f :: rest)

/-! ## Identities -/

variable {facts : List CollectionFact} {f : CollectionFact}

theorem WellFormed.keys (h : WellFormed facts) : (facts.map CollectionFact.factId).Nodup := by
  induction h with
  | nil => exact List.nodup_nil
  | cons hf _ ih =>
    refine List.nodup_cons.mpr ⟨fun hMem => ?_, ih⟩
    obtain ⟨g, hg, hEq⟩ := List.mem_map.mp hMem
    exact hf.fresh g hg hEq

theorem WellFormed.findFact_eq (h : WellFormed facts) (hf : f ∈ facts) : findFact facts f.factId = some f := by
  unfold findFact
  cases hFind : facts.find? fun x => x.factId = f.factId with
  | none => simpa using List.find?_eq_none.mp hFind f hf
  | some x =>
    have hId : x.factId = f.factId := by simpa using List.find?_some hFind
    rw [List.inj_on_of_nodup_map h.keys (List.mem_of_find?_eq_some hFind) hf hId]

theorem mem_of_findFact {factId : Nat} (h : findFact facts factId = some f) : f ∈ facts ∧ f.factId = factId :=
  ⟨List.mem_of_find?_eq_some h, by simpa using List.find?_some h⟩

/-- Only facts of the ledger are reversed. -/
theorem WellFormed.reversed_mem (h : WellFormed facts) {factId : Nat} (hRev : isReversed facts factId = true) :
    ∃ g ∈ facts, g.factId = factId := by
  induction h with
  | nil => cases hRev
  | @cons f rest hf _ ih =>
    simp only [isReversed, List.any_cons, Bool.or_eq_true, decide_eq_true_eq] at hRev
    obtain hHead | hTail := hRev
    · have hType : f.factType = .reversal := by
        by_contra hOther
        rw [hf.forward hOther] at hHead
        cases hHead
      obtain ⟨g, hg, hRef, -⟩ := hf.reversal hType
      rw [hHead, Option.some.injEq] at hRef
      exact ⟨g, List.mem_cons_of_mem _ hg, hRef.symm⟩
    · obtain ⟨g, hg, hId⟩ := ih hTail
      exact ⟨g, List.mem_cons_of_mem _ hg, hId⟩

theorem Appends.unreversed {rest : List CollectionFact} (hf : Appends rest f) (h : WellFormed rest) :
    isReversed rest f.factId = false := by
  by_contra hRev
  rw [Bool.not_eq_false] at hRev
  obtain ⟨g, hg, hId⟩ := h.reversed_mem hRev
  exact hf.fresh g hg hId

theorem isReversed_cons (f : CollectionFact) (rest : List CollectionFact) (factId : Nat) :
    isReversed (f :: rest) factId = (decide (f.reversesFactId = some factId) || isReversed rest factId) := by
  simp [isReversed]

theorem Appends.isReversed_same {rest : List CollectionFact} (hf : Appends rest f)
    (hType : f.factType ≠ .reversal) (factId : Nat) :
    isReversed (f :: rest) factId = isReversed rest factId := by
  rw [isReversed_cons, hf.forward hType]
  simp

theorem isReversed_reversal {rest : List CollectionFact} {g : CollectionFact}
    (hRef : f.reversesFactId = some g.factId) (factId : Nat) :
    isReversed (f :: rest) factId = (decide (factId = g.factId) || isReversed rest factId) := by
  rw [isReversed_cons, hRef]
  simp [eq_comm]

/-! ## The facts in force -/

theorem activeTotal_append {rest : List CollectionFact} (hf : Appends rest f) (h : WellFormed rest)
    (hType : f.factType ≠ .reversal) (type : CollectionFactType) (p : CollectionFact → Bool) :
    activeTotal (f :: rest) type p =
      (if f.factType = type && p f then f.amountMinor else 0) + activeTotal rest type p := by
  have hSame : activeFact (f :: rest) type = activeFact rest type := by
    funext r
    rw [activeFact, hf.isReversed_same hType, activeFact]
  simp only [activeTotal, hSame, total_cons]
  simp [activeFact, hf.unreversed h]

theorem activeTotal_reversal {rest : List CollectionFact} {g : CollectionFact} (h : WellFormed rest)
    (hType : f.factType = .reversal) (hg : g ∈ rest) (hRef : f.reversesFactId = some g.factId)
    (hUnreversed : isReversed rest g.factId = false) {type : CollectionFactType} (hOther : type ≠ .reversal)
    (p : CollectionFact → Bool) :
    activeTotal (f :: rest) type p =
      activeTotal rest type p - if g.factType = type && p g then g.amountMinor else 0 := by
  have hOut : (activeFact (f :: rest) type f && p f) = false := by simp [activeFact, hType, hOther.symm]
  have hDrop := total_drop (p := fun r => activeFact rest type r && p r) (w := CollectionFact.amountMinor)
    h.keys hg
  simp only [activeFact, hUnreversed, Bool.not_false, Bool.and_true] at hDrop
  simp only [activeTotal, total_cons, hOut, Bool.false_eq_true, if_false, Int.zero_add]
  refine Eq.trans (total_congr (fun r _ => ?_) fun _ _ _ => rfl) hDrop
  simp only [activeFact, isReversed_reversal hRef]
  by_cases hSame : r.factId = g.factId <;> simp [hSame]

theorem WellFormed.source (h : WellFormed facts) (hf : f ∈ facts)
    (hDraw : f.isDraw = true ∨ f.factType = .reallocationIn) :
    ∃ a, f.referencesFactId = some a ∧ a ∈ (facts.filter CollectionFact.isShare).map CollectionFact.factId := by
  induction h with
  | nil => cases hf
  | cons hAppends _ ih =>
    obtain rfl | hf := List.mem_cons.mp hf
    · obtain ⟨g, hg, hRef, hShare⟩ := hAppends.source hDraw
      exact ⟨g.factId, hRef, List.mem_map_of_mem (List.mem_filter.mpr ⟨List.mem_cons_of_mem _ hg, hShare⟩)⟩
    · obtain ⟨a, hRef, hMem⟩ := ih hf
      obtain ⟨g, hg, rfl⟩ := List.mem_map.mp hMem
      obtain ⟨hIn, hShare⟩ := List.mem_filter.mp hg
      exact ⟨g.factId, hRef, List.mem_map_of_mem (List.mem_filter.mpr ⟨List.mem_cons_of_mem _ hIn, hShare⟩)⟩

/-! ## Balances of shares -/

theorem WellFormed.positive (h : WellFormed facts) : ∀ f ∈ facts, 0 < f.amountMinor := by
  induction h with
  | nil => exact fun _ hf => nomatch hf
  | cons hAppends _ ih => exact List.forall_mem_cons.mpr ⟨hAppends.positive, ih⟩

theorem movedMinor_cons (f : CollectionFact) (rest : List CollectionFact) (type : CollectionFactType)
    (factId : Nat) : movedMinor (f :: rest) type factId =
      (if f.factType = type && f.referencesFactId = some factId then f.amountMinor else 0) +
        movedMinor rest type factId :=
  total_cons ..

theorem balance_append {rest : List CollectionFact} (hf : Appends rest f) (h : WellFormed rest)
    (hType : f.factType ≠ .reversal) (g : CollectionFact) :
    balanceMinor (f :: rest) g = balanceMinor rest g -
      if f.isDraw && f.referencesFactId = some g.factId then f.amountMinor else 0 := by
  have hRefunded : refundedMinor (f :: rest) g.factId =
      (if f.factType = .refund && f.referencesFactId = some g.factId then f.amountMinor else 0) +
        refundedMinor rest g.factId := activeTotal_append hf h hType ..
  have hMoved := movedMinor_cons f rest .reallocationOut g.factId
  rw [balanceMinor, balanceMinor, transferredMinor, transferredMinor, hRefunded, hMoved]
  cases hKind : f.factType with
  | reversal => exact absurd hKind hType
  | refund | reallocationOut =>
    simp [CollectionFact.isDraw, hKind]
    omega
  | collection | reallocationIn => simp [CollectionFact.isDraw, hKind]

theorem balance_reversal {rest : List CollectionFact} {r : CollectionFact} (h : WellFormed rest)
    (hType : f.factType = .reversal) (hr : r ∈ rest) (hRef : f.reversesFactId = some r.factId)
    (hUnreversed : isReversed rest r.factId = false) (g : CollectionFact) :
    balanceMinor (f :: rest) g = balanceMinor rest g +
      if r.factType = .refund && r.referencesFactId = some g.factId then r.amountMinor else 0 := by
  have hRefunded : refundedMinor (f :: rest) g.factId = refundedMinor rest g.factId -
      if r.factType = .refund && r.referencesFactId = some g.factId then r.amountMinor else 0 :=
    activeTotal_reversal h hType hr hRef hUnreversed (by decide) _
  have hMoved := movedMinor_cons f rest .reallocationOut g.factId
  rw [balanceMinor, balanceMinor, transferredMinor, transferredMinor, hRefunded, hMoved]
  simp only [hType, reduceCtorEq, decide_false, Bool.false_and, Bool.false_eq_true, if_false]
  omega

theorem WellFormed.refunded_nonneg (h : WellFormed facts) (factId : Nat) : 0 ≤ refundedMinor facts factId :=
  total_nonneg fun f hf _ => Int.le_of_lt (h.positive f hf)

theorem WellFormed.moved_nonneg (h : WellFormed facts) (type : CollectionFactType) (factId : Nat) :
    0 ≤ movedMinor facts type factId :=
  total_nonneg fun f hf _ => Int.le_of_lt (h.positive f hf)

/-- Nothing is drawn from a fact that is not in the ledger yet. -/
theorem WellFormed.balance_fresh (h : WellFormed facts) (hFresh : ∀ g ∈ facts, g.factId ≠ f.factId) :
    balanceMinor facts f = f.amountMinor := by
  have hNone : ∀ r ∈ facts, r.isDraw = true → r.referencesFactId ≠ some f.factId := by
    intro r hr hDraw hRef
    obtain ⟨a, hSource, hMem⟩ := h.source hr (.inl hDraw)
    obtain ⟨g, hg, hId⟩ := List.mem_map.mp hMem
    rw [hRef, Option.some.injEq] at hSource
    exact hFresh g (List.mem_filter.mp hg).1 (hId.trans hSource.symm)
  have hRefunded : refundedMinor facts f.factId = 0 := total_eq_zero fun r hr hIn => by
    simp only [activeFact, Bool.and_eq_true, decide_eq_true_eq] at hIn
    exact absurd hIn.2 (hNone r hr (by simp [CollectionFact.isDraw, hIn.1.1]))
  have hMoved : transferredMinor facts f.factId = 0 := total_eq_zero fun r hr hIn => by
    simp only [Bool.and_eq_true, decide_eq_true_eq] at hIn
    exact absurd hIn.2 (hNone r hr (by simp [CollectionFact.isDraw, hIn.1]))
  rw [balanceMinor, hRefunded, hMoved]
  omega

/-! ## Net effects -/

theorem WellFormed.netOk (h : WellFormed facts) : ∀ f ∈ facts, f.NetOk := by
  induction h with
  | nil => exact fun _ hf => nomatch hf
  | cons hAppends _ ih => exact List.forall_mem_cons.mpr ⟨hAppends.net, ih⟩

def movedTotal (facts : List CollectionFact) (type : CollectionFactType) : Int :=
  total (fun r => r.factType = type) CollectionFact.amountMinor facts

theorem WellFormed.net_eq (h : WellFormed facts) :
    netMinor facts = activeCollections facts - activeRefunds facts +
      (movedTotal facts .reallocationIn - movedTotal facts .reallocationOut) := by
  induction h with
  | nil => rfl
  | @cons f rest hAppends hRest ih =>
    have hNet : netMinor (f :: rest) = f.netEffectMinor + netMinor rest := total_cons_pos rfl
    have hMoved : ∀ type, movedTotal (f :: rest) type =
        (if f.factType = type then f.amountMinor else 0) + movedTotal rest type := fun type => by
      simp only [movedTotal, total_cons, decide_eq_true_eq]
    have hOwn := hAppends.net
    cases hType : f.factType with
    | reversal =>
      obtain ⟨g, hg, hRef, hKind, hUnreversed, hBack⟩ := hAppends.reversal hType
      have hCollections := activeTotal_reversal hRest hType hg hRef hUnreversed (show CollectionFactType.collection ≠ .reversal by decide)
        fun _ => true
      have hRefunds := activeTotal_reversal hRest hType hg hRef hUnreversed (show CollectionFactType.refund ≠ .reversal by decide)
        fun _ => true
      have hTarget := hRest.netOk g hg
      simp only [activeCollections, activeRefunds, hNet, hMoved, hCollections, hRefunds, hType] at ih ⊢
      obtain hKind | hKind := hKind <;> simp [CollectionFact.NetOk, hKind] at hTarget ⊢ <;> omega
    | collection | refund | reallocationIn | reallocationOut =>
      have hOther : f.factType ≠ .reversal := by simp [hType]
      simp only [activeCollections, activeRefunds, hNet, hMoved, activeTotal_append hAppends hRest hOther,
        hType] at ih ⊢
      simp [CollectionFact.NetOk, hType] at hOwn ⊢
      omega

/-! ## Roots -/

theorem rootCollection_cons_of_ne {rest : List CollectionFact} {factId : Nat} (h : f.factId ≠ factId) :
    rootCollection (f :: rest) factId = rootCollection rest factId := by
  simp [rootCollection, h]

theorem WellFormed.root_collection (h : WellFormed facts) (hf : f ∈ facts) (hType : f.factType = .collection) :
    rootCollection facts f.factId = f.factId := by
  induction h with
  | nil => cases hf
  | @cons x rest hAppends _ ih =>
    obtain rfl | hf := List.mem_cons.mp hf
    · simp [rootCollection, hType]
    · rw [rootCollection_cons_of_ne (Ne.symm (hAppends.fresh f hf)), ih hf]

theorem WellFormed.root_moved (h : WellFormed facts) (hf : f ∈ facts) (hType : f.factType = .reallocationIn)
    {source : Nat} (hRef : f.referencesFactId = some source) :
    rootCollection facts f.factId = rootCollection facts source := by
  induction h with
  | nil => cases hf
  | @cons x rest hAppends hRest ih =>
    obtain rfl | hf := List.mem_cons.mp hf
    · obtain ⟨g, hg, hSource, -⟩ := hAppends.source (.inr hType)
      rw [hRef, Option.some.injEq] at hSource
      subst hSource
      rw [rootCollection_cons_of_ne (Ne.symm (hAppends.fresh g hg))]
      simp [rootCollection, hType, hRef]
    · obtain ⟨a, hSource, hMem⟩ := hRest.source hf (.inr hType)
      rw [hRef, Option.some.injEq] at hSource
      subst hSource
      obtain ⟨g, hg, hId⟩ := List.mem_map.mp hMem
      rw [rootCollection_cons_of_ne (Ne.symm (hAppends.fresh f hf)), ← hId,
        rootCollection_cons_of_ne (Ne.symm (hAppends.fresh g (List.mem_filter.mp hg).1)), hId]
      exact ih hf

/-! ## What is drawn from a collection -/

def Paired (facts : List CollectionFact) : Prop :=
  ∀ factId, movedMinor facts .reallocationOut factId = movedMinor facts .reallocationIn factId

theorem draws_of_shares (h : WellFormed facts) {p : CollectionFact → Bool}
    (hDraw : ∀ r ∈ facts, p r = true → r.isDraw = true ∨ r.factType = .reallocationIn) (q : Nat → Bool) :
    total (fun f => f.isShare && q f.factId)
        (fun f => total (fun r => p r && r.referencesFactId = some f.factId) CollectionFact.amountMinor facts) facts =
      total (fun r => p r && r.referencesFactId.any q) CollectionFact.amountMinor facts := by
  have hKeys : ((facts.filter CollectionFact.isShare).map CollectionFact.factId).Nodup :=
    h.keys.sublist (List.filter_sublist.map _)
  have hGroups := total_groups (p := p) (w := CollectionFact.amountMinor) hKeys
    (k := CollectionFact.referencesFactId) (fun r hr hp => h.source hr (hDraw r hr hp)) q
  rw [total_filter] at hGroups
  exact hGroups

theorem WellFormed.moved_total (h : WellFormed facts) {type : CollectionFactType}
    (hType : type = .reallocationIn ∨ type = .reallocationOut) :
    total CollectionFact.isShare (fun f => movedMinor facts type f.factId) facts = movedTotal facts type := by
  have hMoves : ∀ r ∈ facts, decide (r.factType = type) = true → r.isDraw = true ∨ r.factType = .reallocationIn := by
    intro r _ hr
    rw [decide_eq_true_eq] at hr
    rcases hType with rfl | rfl <;> simp [CollectionFact.isDraw, hr]
  have hShares := draws_of_shares h hMoves fun _ => true
  simp only [Bool.and_true] at hShares
  refine hShares.trans (total_congr (fun r hr => ?_) fun _ _ _ => rfl)
  cases hKind : decide (r.factType = type) with
  | false => rfl
  | true =>
    obtain ⟨a, hRef, -⟩ := h.source hr (hMoves r hr hKind)
    simp [hRef]

theorem net_of_paired (h : WellFormed facts) (hPaired : Paired facts) :
    netMinor facts = activeCollections facts - activeRefunds facts := by
  have hOut := h.moved_total (.inr rfl)
  have hIn := h.moved_total (.inl rfl)
  simp only [Paired] at hPaired
  simp only [hPaired, hIn] at hOut
  rw [h.net_eq, hOut]
  omega

theorem shares_of_root (h : WellFormed facts) (factId : Nat) :
    total (fun f => f.isShare && rootCollection facts f.factId = factId) CollectionFact.amountMinor facts =
      total (fun f => f.factType = .collection && f.factId = factId) CollectionFact.amountMinor facts +
        total (fun r => r.factType = .reallocationIn && r.referencesFactId.any fun s =>
          rootCollection facts s = factId) CollectionFact.amountMinor facts := by
  have hSplit : ∀ xs : List CollectionFact, (∀ f ∈ xs, f ∈ facts) →
      total (fun f => f.isShare && rootCollection facts f.factId = factId) CollectionFact.amountMinor xs =
        total (fun f => f.factType = .collection && f.factId = factId) CollectionFact.amountMinor xs +
          total (fun r => r.factType = .reallocationIn && r.referencesFactId.any fun s =>
            rootCollection facts s = factId) CollectionFact.amountMinor xs := by
    intro xs hxs
    induction xs with
    | nil => rfl
    | cons f xs ih =>
      obtain ⟨hf, hxs⟩ := List.forall_mem_cons.mp hxs
      rw [total_cons, total_cons, total_cons, ih hxs]
      cases hType : f.factType with
      | collection =>
        simp only [CollectionFact.isShare, hType, h.root_collection hf hType]
        simp
        omega
      | reallocationIn =>
        obtain ⟨a, hRef, -⟩ := h.source hf (.inr hType)
        simp only [CollectionFact.isShare, hType, h.root_moved hf hType hRef, hRef]
        simp
        omega
      | refund | reversal | reallocationOut => simp [CollectionFact.isShare, hType]
  exact hSplit facts fun f hf => hf

/-- What the shares of a collection hold together is what the collection brought in less the
refunds drawn from it. -/
theorem balance_of_root (h : WellFormed facts) (hPaired : Paired facts) (factId : Nat) :
    total (fun f => f.isShare && rootCollection facts f.factId = factId) (balanceMinor facts) facts =
      total (fun f => f.factType = .collection && f.factId = factId) CollectionFact.amountMinor facts -
        drawnFrom facts factId := by
  have hRefunds := draws_of_shares h (p := activeFact facts .refund)
    (fun r _ hr => .inl (by simp [activeFact] at hr; simp [CollectionFact.isDraw, hr.1]))
    fun s => rootCollection facts s = factId
  have hOut := draws_of_shares h (p := fun r => r.factType = .reallocationOut)
    (fun r _ hr => .inl (by simpa [CollectionFact.isDraw] using .inr (by simpa using hr)))
    fun s => rootCollection facts s = factId
  have hIn := draws_of_shares h (p := fun r => r.factType = .reallocationIn)
    (fun r _ hr => .inr (by simpa using hr)) fun s => rootCollection facts s = factId
  have hMoved : total (fun f => f.isShare && rootCollection facts f.factId = factId)
        (fun f => transferredMinor facts f.factId) facts =
      total (fun f => f.isShare && rootCollection facts f.factId = factId)
        (fun f => movedMinor facts .reallocationIn f.factId) facts :=
    total_congr (fun _ _ => rfl) fun f _ _ => hPaired f.factId
  have hShares := shares_of_root h factId
  have hBalance : total (fun f => f.isShare && rootCollection facts f.factId = factId) (balanceMinor facts) facts =
      total (fun f => f.isShare && rootCollection facts f.factId = factId) CollectionFact.amountMinor facts -
        total (fun f => f.isShare && rootCollection facts f.factId = factId)
          (fun f => refundedMinor facts f.factId) facts -
        total (fun f => f.isShare && rootCollection facts f.factId = factId)
          (fun f => transferredMinor facts f.factId) facts := by
    rw [← total_sub, ← total_sub]
    rfl
  simp only [transferredMinor, movedMinor, refundedMinor, activeTotal, drawnFrom] at hRefunds hOut hIn hMoved hShares hBalance ⊢
  omega

theorem drawnFrom_le (h : WellFormed facts) (hPaired : Paired facts)
    (hCovered : ∀ f ∈ facts, f.isShare = true → 0 ≤ balanceMinor facts f) (hf : f ∈ facts)
    (hType : f.factType = .collection) : drawnFrom facts f.factId ≤ f.amountMinor := by
  have hBalance := balance_of_root h hPaired f.factId
  have hNonneg : 0 ≤ total (fun g => g.isShare && rootCollection facts g.factId = f.factId)
      (balanceMinor facts) facts := total_nonneg fun g hg hIn => hCovered g hg (by simp at hIn; exact hIn.1)
  have hOwn : total (fun g => g.factType = .collection && g.factId = f.factId) CollectionFact.amountMinor facts =
      f.amountMinor := total_key (p := fun g => g.factType = .collection) h.keys hf (by simpa using hType)
  omega

end GreenPms
