import Mathlib.Data.List.Induction
import Mathlib.Data.List.Pairwise
import Mathlib.Order.MinMax

/-! # Chains of intervals

Rows with a first date and an end date, in the order of their first dates, are cut into chains
wherever a date is left uncovered. The dates that a list of intervals covers are counted in one pass.
-/

namespace Intervals

variable {α β : Type*}

section Chains

variable (lo hi : α → Nat)

def first (chain : List α) : Nat := (chain.head?.map lo).getD 0

def reach (chain : List α) : Nat := chain.foldl (fun until_ a => max until_ (hi a)) 0

def cut (chain : List α) : List α → List (List α)
  | [] => [chain]
  | a :: rest => if reach hi chain < lo a then chain :: cut [a] rest else cut (chain ++ [a]) rest

def chains : List α → List (List α)
  | [] => []
  | a :: rest => cut lo hi [a] rest

variable {lo hi}

theorem reach_append (chain : List α) (a : α) : reach hi (chain ++ [a]) = max (reach hi chain) (hi a) := by
  rw [reach, List.foldl_append]
  rfl

theorem first_append {chain : List α} (h : chain ≠ []) (a : α) : first lo (chain ++ [a]) = first lo chain := by
  obtain ⟨b, bs, rfl⟩ := List.exists_cons_of_ne_nil h
  rfl

theorem le_reach {chain : List α} {a : α} (h : a ∈ chain) : hi a ≤ reach hi chain := by
  have hFold : ∀ (xs : List α) (m : Nat), m ≤ xs.foldl (fun until_ a => max until_ (hi a)) m ∧
      ∀ a ∈ xs, hi a ≤ xs.foldl (fun until_ a => max until_ (hi a)) m := by
    intro xs
    induction xs with
    | nil => exact fun m => ⟨Nat.le_refl m, fun _ h => (List.not_mem_nil h).elim⟩
    | cons x xs ih =>
      intro m
      obtain ⟨hGrows, hAll⟩ := ih (max m (hi x))
      refine ⟨(le_max_left _ _).trans hGrows, List.forall_mem_cons.mpr ⟨?_, hAll⟩⟩
      exact (le_max_right _ _).trans hGrows
  exact (hFold chain 0).2 a h

/-- A chain covers every date from its first to its end. -/
structure Linked (lo hi : α → Nat) (chain : List α) : Prop where
  nonempty : chain ≠ []
  first_le : ∀ a ∈ chain, first lo chain ≤ lo a
  covers : ∀ d, first lo chain ≤ d → d < reach hi chain → ∃ a ∈ chain, lo a ≤ d ∧ d < hi a

/-- A chain of rows is linked, and no other row touches it. -/
structure IsChain (lo hi : α → Nat) (all chain : List α) : Prop extends Linked lo hi chain where
  mem_iff : ∀ a ∈ all, a ∈ chain ↔ first lo chain ≤ lo a ∧ lo a < reach hi chain
  sub : ∀ a ∈ chain, a ∈ all
  apart : ∀ a ∈ all, a ∉ chain → hi a < first lo chain ∨ reach hi chain < lo a

theorem Linked.singleton (a : α) : Linked lo hi [a] where
  nonempty := List.cons_ne_nil _ _
  first_le := List.forall_mem_singleton.mpr (Nat.le_refl _)
  covers d hLow hHigh := ⟨a, List.mem_cons_self, hLow, by simpa [reach] using hHigh⟩

theorem Linked.append {chain : List α} (h : Linked lo hi chain) {a : α} (hFirst : first lo chain ≤ lo a)
    (hTouches : lo a ≤ reach hi chain) : Linked lo hi (chain ++ [a]) := by
  have hSame : first lo (chain ++ [a]) = first lo chain := first_append h.nonempty a
  refine ⟨by simp, ?_, ?_⟩
  · rw [hSame]
    intro b hb
    obtain hb | hb := List.mem_append.mp hb
    · exact h.first_le b hb
    · rwa [List.mem_singleton.mp hb]
  · rw [hSame, reach_append]
    intro d hLow hHigh
    obtain hOld | hNew := Nat.lt_or_ge d (reach hi chain)
    · obtain ⟨b, hb, hCovers⟩ := h.covers d hLow hOld
      exact ⟨b, List.mem_append_left _ hb, hCovers⟩
    · refine ⟨a, List.mem_append_right _ List.mem_cons_self, hTouches.trans hNew, ?_⟩
      exact (lt_max_iff.mp hHigh).resolve_left (Nat.not_lt.mpr hNew)

/-- Rows that end before a linked chain and rows that begin behind it do not touch it. -/
theorem Linked.isChain {before chain after : List α} (hPos : ∀ a ∈ chain, lo a < hi a) (h : Linked lo hi chain)
    (hEarlier : ∀ b ∈ before, hi b < first lo chain) (hPosBefore : ∀ b ∈ before, lo b < hi b)
    (hLater : ∀ b ∈ after, reach hi chain < lo b) : IsChain lo hi (before ++ chain ++ after) chain := by
  have hSplit : ∀ a ∈ before ++ chain ++ after, a ∈ before ∨ a ∈ chain ∨ a ∈ after := by
    intro a ha
    simpa [or_assoc] using ha
  refine ⟨h, fun a ha => ⟨fun hMem => ⟨h.first_le a hMem, (hPos a hMem).trans_le (le_reach hMem)⟩, ?_⟩, ?_, ?_⟩
  · rintro ⟨hLow, hHigh⟩
    obtain hBefore | hChain | hAfter := hSplit a ha
    · exact absurd ((hPosBefore a hBefore).trans (hEarlier a hBefore)) (Nat.not_lt.mpr hLow)
    · exact hChain
    · exact absurd ((hLater a hAfter).trans hHigh) (Nat.lt_irrefl _)
  · intro a ha
    exact List.mem_append_left _ (List.mem_append_right _ ha)
  · intro a ha hOut
    obtain hBefore | hChain | hAfter := hSplit a ha
    · exact .inl (hEarlier a hBefore)
    · exact absurd hChain hOut
    · exact .inr (hLater a hAfter)

theorem cut_spec {before chain rest : List α} (hPos : ∀ a ∈ before ++ chain ++ rest, lo a < hi a)
    (hSorted : (before ++ chain ++ rest).Pairwise fun a b => lo a ≤ lo b) (h : Linked lo hi chain)
    (hEarlier : ∀ b ∈ before, hi b < first lo chain) :
    ∀ c ∈ cut lo hi chain rest, IsChain lo hi (before ++ chain ++ rest) c := by
  have hPosBefore : ∀ b ∈ before, lo b < hi b := fun b hb => hPos b (by simp [hb])
  have hPosChain : ∀ b ∈ chain, lo b < hi b := fun b hb => hPos b (by simp [hb])
  induction rest generalizing before chain with
  | nil =>
    intro c hc
    obtain rfl := List.mem_singleton.mp hc
    exact h.isChain hPosChain hEarlier hPosBefore fun _ hb => (List.not_mem_nil hb).elim
  | cons a rest ih =>
    have hFirst : first lo chain ≤ lo a := by
      obtain ⟨b, bs, rfl⟩ := List.exists_cons_of_ne_nil h.nonempty
      have hPair := (List.pairwise_append.mp hSorted).2.2 b (by simp) a List.mem_cons_self
      simpa [first] using hPair
    have hPosA : lo a < hi a := hPos a (by simp)
    intro c hc
    rw [cut] at hc
    split at hc
    case isTrue hGap =>
      obtain rfl | hc := List.mem_cons.mp hc
      · refine h.isChain hPosChain hEarlier hPosBefore (List.forall_mem_cons.mpr ⟨hGap, fun b hb => ?_⟩)
        have hRest := (List.pairwise_append.mp hSorted).2.1
        exact hGap.trans_le ((List.pairwise_cons.mp hRest).1 b hb)
      · have hAll : before ++ chain ++ a :: rest = (before ++ chain) ++ [a] ++ rest := by simp
        rw [hAll] at hPos hSorted ⊢
        refine ih hPos hSorted (.singleton a) (fun b hb => ?_) (fun b hb => ?_)
          (List.forall_mem_singleton.mpr hPosA) c hc
        · obtain hb | hb := List.mem_append.mp hb
          · exact (hEarlier b hb).trans_le hFirst
          · exact (le_reach hb).trans_lt hGap
        · obtain hb | hb := List.mem_append.mp hb
          · exact hPosBefore b hb
          · exact hPosChain b hb
    case isFalse hTouches =>
      have hAll : before ++ chain ++ a :: rest = before ++ (chain ++ [a]) ++ rest := by simp
      rw [hAll] at hPos hSorted ⊢
      refine ih hPos hSorted (h.append hFirst (Nat.not_lt.mp hTouches)) ?_ hPosBefore ?_ c hc
      · rwa [first_append h.nonempty]
      · intro b hb
        obtain hb | hb := List.mem_append.mp hb
        · exact hPosChain b hb
        · rwa [List.mem_singleton.mp hb]

theorem chains_spec {xs : List α} (hPos : ∀ a ∈ xs, lo a < hi a) (hSorted : xs.Pairwise fun a b => lo a ≤ lo b) :
    ∀ c ∈ chains lo hi xs, IsChain lo hi xs c := by
  cases xs with
  | nil => exact fun _ h => (List.not_mem_nil h).elim
  | cons a rest =>
    have hNone : ∀ b ∈ ([] : List α), hi b < first lo [a] := fun _ h => (List.not_mem_nil h).elim
    exact cut_spec hPos hSorted (.singleton a) hNone

/-! ### Dates that one chain covers -/

variable (lo hi) in
theorem cut_flatten (chain rest : List α) : (cut lo hi chain rest).flatten = chain ++ rest := by
  induction rest generalizing chain with
  | nil => simp [cut]
  | cons a rest ih =>
    rw [cut]
    split
    · rw [List.flatten_cons, ih]
      rfl
    · rw [ih, List.append_assoc]
      rfl

variable (lo hi) in
theorem chains_flatten (xs : List α) : (chains lo hi xs).flatten = xs := by
  cases xs with
  | nil => rfl
  | cons a rest => exact cut_flatten lo hi [a] rest

/-- Whatever the rows are, a chain is linked, and the later chains lie behind it. -/
theorem cut_apart {chain rest : List α} (hSorted : (chain ++ rest).Pairwise fun a b => lo a ≤ lo b)
    (h : Linked lo hi chain) : (∀ c ∈ cut lo hi chain rest, Linked lo hi c) ∧
      (cut lo hi chain rest).Pairwise fun c c' => ∀ b ∈ c', reach hi c < lo b := by
  induction rest generalizing chain with
  | nil => exact ⟨List.forall_mem_singleton.mpr h, List.pairwise_singleton _ _⟩
  | cons a rest ih =>
    obtain ⟨-, hRest, hCross⟩ := List.pairwise_append.mp hSorted
    rw [cut]
    split
    case isTrue hGap =>
      obtain ⟨hLinked, hApart⟩ := ih hRest (.singleton a)
      refine ⟨List.forall_mem_cons.mpr ⟨h, hLinked⟩, List.pairwise_cons.mpr ⟨fun c hc b hb => ?_, hApart⟩⟩
      have hMem : b ∈ a :: rest := by
        have hFlat := cut_flatten lo hi [a] rest
        rw [List.singleton_append] at hFlat
        rw [← hFlat]
        exact List.mem_flatten.mpr ⟨c, hc, hb⟩
      obtain rfl | hLater := List.mem_cons.mp hMem
      · exact hGap
      · exact hGap.trans_le ((List.pairwise_cons.mp hRest).1 b hLater)
    case isFalse hTouches =>
      refine ih (by simpa using hSorted) (h.append ?_ (Nat.not_lt.mp hTouches))
      obtain ⟨b, bs, rfl⟩ := List.exists_cons_of_ne_nil h.nonempty
      simpa [first] using hCross b List.mem_cons_self a List.mem_cons_self

variable (hi) in
theorem chains_apart {xs : List α} (hSorted : xs.Pairwise fun a b => lo a ≤ lo b) :
    (∀ c ∈ chains lo hi xs, Linked lo hi c) ∧
      (chains lo hi xs).Pairwise fun c c' => ∀ b ∈ c', reach hi c < lo b := by
  cases xs with
  | nil => exact ⟨fun _ h => (List.not_mem_nil h).elim, List.Pairwise.nil⟩
  | cons a rest => exact cut_apart hSorted (.singleton a)

variable (hi) in
/-- Dates that are all covered lie in one chain. -/
theorem chains_cover_iff {xs : List α} (hSorted : xs.Pairwise fun a b => lo a ≤ lo b) {from_ until_ : Nat}
    (hDates : from_ ≤ until_) : (∃ c ∈ chains lo hi xs, first lo c ≤ from_ ∧ until_ < reach hi c) ↔
      ∀ d, from_ ≤ d → d ≤ until_ → ∃ a ∈ xs, lo a ≤ d ∧ d < hi a := by
  obtain ⟨hLinked, hApart⟩ := chains_apart hi hSorted
  constructor
  · rintro ⟨c, hc, hFirst, hReach⟩ d hFrom hUntil
    obtain ⟨a, ha, hCovers⟩ := (hLinked c hc).covers d (hFirst.trans hFrom) (hUntil.trans_lt hReach)
    exact ⟨a, (chains_flatten lo hi xs) ▸ List.mem_flatten.mpr ⟨c, hc, ha⟩, hCovers⟩
  · intro hCovered
    have hChain : ∀ a ∈ xs, ∃ c ∈ chains lo hi xs, a ∈ c := fun a ha => by
      rw [← chains_flatten lo hi xs] at ha
      exact List.mem_flatten.mp ha
    obtain ⟨a, ha, hLow, hHigh⟩ := hCovered from_ (Nat.le_refl _) hDates
    obtain ⟨c, hc, hac⟩ := hChain a ha
    refine ⟨c, hc, ((hLinked c hc).first_le a hac).trans hLow, ?_⟩
    by_contra hEnds
    -- The end of the chain is a date that is covered, by a row of no chain.
    have hInside : from_ ≤ reach hi c := hHigh.le.trans (le_reach hac)
    obtain ⟨b, hb, hLow', hHigh'⟩ := hCovered (reach hi c) hInside (Nat.not_lt.mp hEnds)
    obtain ⟨c', hc', hbc'⟩ := hChain b hb
    have hOrder : c = c' ∨ (∀ b ∈ c', reach hi c < lo b) ∨ ∀ b ∈ c, reach hi c' < lo b := by
      let Apart (c c' : List α) : Prop := (∀ b ∈ c', reach hi c < lo b) ∨ ∀ b ∈ c, reach hi c' < lo b
      have : Std.Symm Apart := ⟨fun _ _ => Or.symm⟩
      have hEither : (chains lo hi xs).Pairwise Apart := hApart.imp Or.inl
      by_cases hSame : c = c'
      · exact .inl hSame
      · exact .inr (hEither.forall hc hc' hSame)
    obtain rfl | hLater | hEarlier := hOrder
    · exact absurd (le_reach hbc') (Nat.not_le.mpr hHigh')
    · exact absurd (hLater b hbc') (Nat.not_lt.mpr hLow')
    · have hBefore : reach hi c' < lo a := hEarlier a hac
      have hOwn : hi b ≤ reach hi c' := le_reach hbc'
      omega

/-! ### Rows at their places -/

theorem reach_le_iff {chain : List α} {n : Nat} : reach hi chain ≤ n ↔ ∀ a ∈ chain, hi a ≤ n := by
  induction chain using List.reverseRecOn with
  | nil => simp [reach]
  | append_singleton chain a ih => rw [reach_append, max_le_iff, ih, List.forall_mem_append, List.forall_mem_singleton]

variable (hi) in
theorem exists_reach {chain : List α} (h : chain ≠ []) : ∃ a ∈ chain, hi a = reach hi chain := by
  induction chain using List.reverseRecOn with
  | nil => exact absurd rfl h
  | append_singleton chain a ih =>
    rw [reach_append]
    obtain hNew | hOld := Nat.le_total (reach hi chain) (hi a)
    · exact ⟨a, List.mem_append_right _ List.mem_cons_self, (max_eq_right hNew).symm⟩
    · by_cases hEmpty : chain = []
      · subst hEmpty
        exact ⟨a, List.mem_singleton_self a, (max_eq_right (Nat.zero_le _)).symm⟩
      · obtain ⟨b, hb, hReach⟩ := ih hEmpty
        exact ⟨b, List.mem_append_left _ hb, hReach.trans (max_eq_left hOld).symm⟩

/-- A row of a flattened list stands in one of its lists. -/
theorem flatten_place {cs : List (List α)} {front back : List α} {a : α} (h : cs.flatten = front ++ a :: back) :
    ∃ before mid rest after, cs = before ++ (mid ++ a :: rest) :: after ∧ front = before.flatten ++ mid := by
  induction cs generalizing front with
  | nil => simp at h
  | cons c cs ih =>
    rw [List.flatten_cons, List.append_eq_append_iff] at h
    obtain ⟨mid, rfl, hRest⟩ | ⟨rest, rfl, hRest⟩ := h
    · obtain ⟨before, mid', rest, after, rfl, rfl⟩ := ih hRest
      exact ⟨c :: before, mid', rest, after, rfl, (List.append_assoc _ _ _).symm⟩
    · cases rest with
      | nil =>
        have hHere : cs.flatten = [] ++ a :: back := hRest.symm
        obtain ⟨before, mid', rest, after, rfl, hFront⟩ := ih hHere
        obtain ⟨hBefore, rfl⟩ := List.append_eq_nil_iff.mp hFront.symm
        exact ⟨front :: before, [], rest, after, by simp, by simp [hBefore]⟩
      | cons b rest =>
        obtain ⟨rfl, rfl⟩ := List.cons.inj hRest
        exact ⟨[], front, rest, cs, rfl, rfl⟩

section Places

variable {xs : List α} {a b : α}

variable (hi) in
/-- The rows of the chains before a row end before it. -/
theorem chains_place (hSorted : xs.Pairwise fun a b => lo a ≤ lo b) {front back : List α}
    (hSplit : xs = front ++ a :: back) : ∃ before mid rest, mid ++ a :: rest ∈ chains lo hi xs ∧
      front = before ++ mid ∧ ∀ b ∈ before, ∀ c ∈ mid ++ a :: rest, hi b < lo c := by
  obtain ⟨-, hApart⟩ := chains_apart hi hSorted
  obtain ⟨before, mid, rest, after, hChains, hFront⟩ := flatten_place ((chains_flatten lo hi xs).trans hSplit)
  refine ⟨before.flatten, mid, rest, ?_, hFront, fun b hb c hc => ?_⟩
  · rw [hChains]
    exact List.mem_append_right _ List.mem_cons_self
  · rw [hChains, List.pairwise_append] at hApart
    obtain ⟨chain, hChain, hb⟩ := List.mem_flatten.mp hb
    exact (le_reach hb).trans_lt (hApart.2.2 chain hChain _ List.mem_cons_self c hc)

/-- A chain of sorted rows is a part of them, and the rows before it end before it. -/
theorem chain_place (hSorted : xs.Pairwise fun a b => lo a ≤ lo b) {c : List α} (h : c ∈ chains lo hi xs) :
    ∃ before back, xs = before ++ (c ++ back) ∧ ∀ b ∈ before, ∀ a ∈ c, hi b < lo a := by
  obtain ⟨-, hApart⟩ := chains_apart hi hSorted
  obtain ⟨before, after, hChains⟩ := List.append_of_mem h
  refine ⟨before.flatten, after.flatten, ?_, fun b hb a ha => ?_⟩
  · rw [← chains_flatten lo hi xs, hChains, List.flatten_append, List.flatten_cons]
  · rw [hChains, List.pairwise_append] at hApart
    obtain ⟨chain, hChain, hb⟩ := List.mem_flatten.mp hb
    exact (le_reach hb).trans_lt (hApart.2.2 chain hChain _ List.mem_cons_self a ha)

/-- A row within a chain begins where the rows before it reach, or before. -/
theorem le_reach_of_mem_chains (hPos : ∀ a ∈ xs, lo a < hi a) (hSorted : xs.Pairwise fun a b => lo a ≤ lo b)
    {mid rest : List α} (h : mid ++ a :: rest ∈ chains lo hi xs) (hMid : mid ≠ []) : lo a ≤ reach hi mid := by
  have hLinked := (chains_apart hi hSorted).1 _ h
  have hSub : (mid ++ a :: rest).Sublist xs := by
    rw [← chains_flatten lo hi xs]
    exact List.sublist_flatten_of_mem h
  have hBack : ∀ b ∈ rest, lo a ≤ lo b :=
    (List.pairwise_cons.mp (List.pairwise_append.mp (hSorted.sublist hSub)).2.1).1
  obtain ⟨b, hb, hReach⟩ := exists_reach hi hMid
  have hMem : ∀ c ∈ mid ++ a :: rest, c ∈ xs := fun c hc => hSub.mem hc
  have hFirst : first lo (mid ++ a :: rest) ≤ reach hi mid :=
    (hLinked.first_le b (List.mem_append_left _ hb)).trans ((hPos b (hMem b (List.mem_append_left _ hb))).le.trans hReach.le)
  by_contra hGap
  have hEnd : hi a ≤ reach hi (mid ++ a :: rest) := le_reach (List.mem_append_right _ List.mem_cons_self)
  have hA : lo a < hi a := hPos a (hMem a (List.mem_append_right _ List.mem_cons_self))
  -- The date that the rows before it reach is covered by no row.
  obtain ⟨c, hc, hLow, hHigh⟩ := hLinked.covers (reach hi mid) hFirst (by omega)
  obtain hc | hc := List.mem_append.mp hc
  · exact absurd (le_reach hc) (Nat.not_le.mpr hHigh)
  · obtain rfl | hc := List.mem_cons.mp hc
    · exact hGap hLow
    · exact hGap ((hBack c hc).trans hLow)

/-- A row begins a chain where all rows before it end before it. -/
theorem head_of_chain_iff (hPos : ∀ a ∈ xs, lo a < hi a) (hSorted : xs.Pairwise fun a b => lo a ≤ lo b) :
    (∃ c ∈ chains lo hi xs, c.head? = some a) ↔ ∃ front back, xs = front ++ a :: back ∧ ∀ b ∈ front, hi b < lo a := by
  constructor
  · rintro ⟨c, hc, hHead⟩
    obtain ⟨rest, rfl⟩ := List.head?_eq_some_iff.mp hHead
    obtain ⟨before, back, hSplit, hBefore⟩ := chain_place hSorted hc
    exact ⟨before, rest ++ back, hSplit, fun b hb => hBefore b hb a List.mem_cons_self⟩
  · rintro ⟨front, back, hSplit, hFront⟩
    obtain ⟨before, mid, rest, hc, rfl, -⟩ := chains_place hi hSorted hSplit
    by_cases hMid : mid = []
    · subst hMid
      exact ⟨a :: rest, hc, rfl⟩
    · obtain ⟨b, hb, hReach⟩ := exists_reach hi hMid
      have hGap := hFront b (List.mem_append_right _ hb)
      exact absurd (le_reach_of_mem_chains hPos hSorted hc hMid) (Nat.not_le.mpr (hReach ▸ hGap))

/-- A row goes on from a chain where the rows before it reach. -/
theorem next_in_chain_iff (hPos : ∀ a ∈ xs, lo a < hi a) (hSorted : xs.Pairwise fun a b => lo a ≤ lo b) :
    (∃ mid rest, mid ++ a :: rest ∈ chains lo hi xs ∧ mid.getLast? = some b ∧ lo a = reach hi mid) ↔
      ∃ front back, xs = front ++ a :: back ∧ front.getLast? = some b ∧ lo a = reach hi front := by
  have hReach : ∀ {before mid rest : List α}, mid ≠ [] → (∀ c ∈ mid, lo c < hi c) →
      (∀ b ∈ before, ∀ c ∈ mid ++ a :: rest, hi b < lo c) → reach hi (before ++ mid) = reach hi mid := by
    intro before mid rest hMid hPosMid hBefore
    obtain ⟨c, hc, hEnd⟩ := exists_reach hi hMid
    refine Nat.le_antisymm (reach_le_iff.mpr (List.forall_mem_append.mpr ⟨fun b hb => ?_, fun b hb => le_reach hb⟩))
      (reach_le_iff.mpr fun b hb => le_reach (List.mem_append_right _ hb))
    have hGap := hBefore b hb c (List.mem_append_left _ hc)
    have hOwn := hPosMid c hc
    omega
  constructor
  · rintro ⟨mid, rest, hc, hLast, hTouches⟩
    obtain ⟨before, back, hSplit, hBefore⟩ := chain_place hSorted hc
    have hMid : mid ≠ [] := fun hEmpty => by simp [hEmpty] at hLast
    refine ⟨before ++ mid, rest ++ back, by simpa using hSplit, by rw [List.getLast?_append, hLast]; rfl, ?_⟩
    rw [hReach hMid (fun c hc => hPos c (hSplit ▸ by simp [hc])) hBefore, hTouches]
  · rintro ⟨front, back, hSplit, hLast, hTouches⟩
    obtain ⟨before, mid, rest, hc, rfl, hBefore⟩ := chains_place hi hSorted hSplit
    by_cases hMid : mid = []
    · subst hMid
      rw [List.append_nil] at hTouches hLast
      obtain ⟨c, hMem, hEnd⟩ := exists_reach hi (List.ne_nil_of_mem (List.mem_of_getLast? hLast))
      exact absurd (hBefore c hMem a List.mem_cons_self) (by omega)
    · rw [hReach hMid (fun c hc => hPos c (hSplit ▸ by simp [hc])) hBefore] at hTouches
      refine ⟨mid, rest, hc, ?_, hTouches⟩
      rw [List.getLast?_append, List.getLast?_eq_some_getLast hMid] at hLast
      rw [List.getLast?_eq_some_getLast hMid]
      exact hLast

end Places

theorem first_map (f : α → β) (lo : β → Nat) (chain : List α) :
    first lo (chain.map f) = first (fun a => lo (f a)) chain := by
  cases chain <;> rfl

theorem reach_map (f : α → β) (hi : β → Nat) (chain : List α) :
    reach hi (chain.map f) = reach (fun a => hi (f a)) chain := by
  rw [reach, reach, List.foldl_map]

/-- Rows that are read through a map are cut where their images are. -/
theorem chains_map (f : α → β) (lo hi : β → Nat) (xs : List α) :
    (chains (fun a => lo (f a)) (fun a => hi (f a)) xs).map (List.map f) = chains lo hi (xs.map f) := by
  have hCut : ∀ (rest chain : List α), (cut (fun a => lo (f a)) (fun a => hi (f a)) chain rest).map (List.map f) =
      cut lo hi (chain.map f) (rest.map f) := by
    intro rest
    induction rest with
    | nil => exact fun chain => rfl
    | cons a rest ih =>
      intro chain
      rw [cut, List.map_cons, cut, reach_map]
      split
      · rw [List.map_cons, ih]
        rfl
      · rw [ih, List.map_append]
        rfl
  cases xs with
  | nil => rfl
  | cons a rest => exact hCut rest [a]

end Chains

/-! ## Counting covered dates -/

/-- The dates from a counted one on that intervals, given by their first and end dates, cover. -/
def coveredFrom (counted : Nat) : List (Nat × Nat) → Nat
  | [] => 0
  | i :: rest => (i.2 - max i.1 counted) + coveredFrom (max counted i.2) rest

/-- Intervals that cover the dates up to an end count these. -/
theorem coveredFrom_eq {counted until_ : Nat} {xs : List (Nat × Nat)} (hPos : ∀ i ∈ xs, i.1 < i.2)
    (hSorted : xs.Pairwise fun a b => a.1 ≤ b.1)
    (hCovers : ∀ d, counted ≤ d → ((∃ i ∈ xs, i.1 ≤ d ∧ d < i.2) ↔ d < until_)) :
    coveredFrom counted xs = until_ - counted := by
  induction xs generalizing counted with
  | nil =>
    have hNone := (hCovers counted (Nat.le_refl _)).not
    simp only [List.not_mem_nil, false_and, exists_false, not_false_eq_true, true_iff] at hNone
    rw [coveredFrom]
    omega
  | cons i rest ih =>
    obtain ⟨hHead, hPos⟩ := List.forall_mem_cons.mp hPos
    obtain ⟨hLater, hSorted⟩ := List.pairwise_cons.mp hSorted
    have hRest : coveredFrom (max counted i.2) rest = until_ - max counted i.2 := ih hPos hSorted fun d hd => by
      rw [← hCovers d ((le_max_left _ _).trans hd)]
      have hPast : ¬ d < i.2 := Nat.not_lt.mpr ((le_max_right _ _).trans hd)
      simp [hPast]
    rw [coveredFrom, hRest]
    -- The first interval begins at a date that is counted already or is the next to count.
    have hBegins : i.2 ≤ counted ∨ (i.1 ≤ counted ∧ i.2 ≤ until_) := by
      by_cases hOld : i.2 ≤ counted
      · exact .inl hOld
      · refine .inr ⟨?_, ?_⟩
        · by_contra hGap
          have hHere := (hCovers i.1 (by omega)).mp ⟨i, List.mem_cons_self, Nat.le_refl _, hHead⟩
          obtain ⟨j, hj, hLow, hHigh⟩ := (hCovers counted (Nat.le_refl _)).mpr (by omega)
          obtain rfl | hj := List.mem_cons.mp hj
          · exact hGap hLow
          · exact hGap ((hLater j hj).trans hLow)
        · have hLast := (hCovers (i.2 - 1) (by omega)).mp ⟨i, List.mem_cons_self, by omega, by omega⟩
          omega
    omega

end Intervals
