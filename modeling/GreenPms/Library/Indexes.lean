import Mathlib.Algebra.GroupWithZero.Nat
import Mathlib.Data.List.Sort
import Mathlib.Data.List.Perm.Basic
import Mathlib.Algebra.BigOperators.Group.List.Basic

/-! # Indexes and trails

An index that a loop builds by appending to the group of each key holds the rows of that key. A
trail follows links between rows until a row repeats. What is read off a set of rows does not
depend on their order.
-/

namespace Indexes

variable {α κ : Type*} [DecidableEq κ]

def appendTo (m : κ → List α) (k : κ) (a : α) : κ → List α := Function.update m k (m k ++ [a])

def addTo (m : κ → Nat) (k : κ) (n : Nat) : κ → Nat := Function.update m k (m k + n)

def group (key : α → κ) (xs : List α) : κ → List α := xs.foldl (fun m a => appendTo m (key a) a) fun _ => []

theorem appendTo_apply (m : κ → List α) (k k' : κ) (a : α) :
    appendTo m k a k' = if k = k' then m k' ++ [a] else m k' := by
  rw [appendTo, Function.update_apply]
  by_cases h : k = k'
  · rw [if_pos h.symm, if_pos h, h]
  · rw [if_neg (Ne.symm h), if_neg h]

theorem addTo_apply (m : κ → Nat) (k k' : κ) (n : Nat) : addTo m k n k' = m k' + if k = k' then n else 0 := by
  rw [addTo, Function.update_apply]
  by_cases h : k = k'
  · rw [if_pos h.symm, if_pos h, h]
  · rw [if_neg (Ne.symm h), if_neg h, Nat.add_zero]

theorem group_apply (key : α → κ) (xs : List α) (k : κ) : group key xs k = xs.filter fun a => key a = k := by
  have hFold : ∀ m : κ → List α,
      xs.foldl (fun m a => appendTo m (key a) a) m k = m k ++ xs.filter fun a => key a = k := by
    induction xs with
    | nil => simp
    | cons a xs ih =>
      intro m
      rw [List.foldl_cons, ih, appendTo_apply]
      split <;> simp [*]
  exact (hFold _).trans (List.nil_append _)

theorem foldl_addTo (key : α → κ) (w : α → Nat) (xs : List α) (m : κ → Nat) (k : κ) :
    xs.foldl (fun m a => addTo m (key a) (w a)) m k = m k + ((xs.filter fun a => key a = k).map w).sum := by
  induction xs generalizing m with
  | nil => simp
  | cons a xs ih =>
    rw [List.foldl_cons, ih, addTo_apply, List.filter_cons]
    by_cases h : key a = k <;> simp [h, Nat.add_assoc]

theorem group_perm (key : α → κ) {xs ys : List α} (h : xs.Perm ys) (k : κ) :
    (group key xs k).Perm (group key ys k) := by
  rw [group_apply, group_apply]
  exact h.filter _

/-! ## Groups -/

/-- The keys of the rows in the order in which they come first, with the rows of each. -/
def groups (key : α → Option κ) (xs : List α) : List (κ × List α) :=
  (xs.filterMap key).eraseDups.map fun k => (k, xs.filter fun a => key a = some k)

/-! ## Trails -/

/-- The rows that follow `a`, until no row follows or a key repeats. -/
def trail (next : α → Option α) (key : α → κ) : Nat → List κ → α → List α
  | 0, _, _ => []
  | n + 1, seen, a =>
      match next a with
      | none => []
      | some b => if key b ∈ seen then [] else b :: trail next key n (key b :: seen) b

/-- A trail through the rows of a list is never longer than the list, so that many steps are enough. -/
theorem trail_enough {next : α → Option α} {key : α → κ} (rows : List α)
    (hNext : ∀ a b, next a = some b → b ∈ rows) {n m : Nat} {seen : List κ} (a : α)
    (hn : (rows.filter fun b => key b ∉ seen).length ≤ n) (hm : (rows.filter fun b => key b ∉ seen).length ≤ m) :
    trail next key n seen a = trail next key m seen a := by
  induction n generalizing m seen a with
  | zero =>
    have hNone : ∀ b ∈ rows, key b ∈ seen := by
      intro b hb
      by_contra hNew
      have hMem : b ∈ rows.filter fun b => key b ∉ seen := List.mem_filter.mpr ⟨hb, by simpa using hNew⟩
      rw [List.length_eq_zero_iff.mp (Nat.le_zero.mp hn)] at hMem
      cases hMem
    cases m with
    | zero => rfl
    | succ m =>
      rw [trail, trail]
      cases hb : next a with
      | none => rfl
      | some b => simp only [if_pos (hNone b (hNext a b hb))]
  | succ n ih =>
    have hShrink : ∀ b, next a = some b → key b ∉ seen →
        (rows.filter fun c => key c ∉ key b :: seen).length < (rows.filter fun c => key c ∉ seen).length := by
      intro b hb hNew
      have hSub : rows.filter (fun c => decide (key c ∉ key b :: seen)) =
          (rows.filter fun c => key c ∉ seen).filter fun c => key c ≠ key b := by
        rw [List.filter_filter]
        refine List.filter_congr fun c _ => ?_
        simp
      rw [hSub]
      refine List.length_filter_lt_length_iff_exists.mpr ⟨b, ?_, by simp⟩
      exact List.mem_filter.mpr ⟨hNext a b hb, by simpa using hNew⟩
    cases m with
    | zero =>
      rw [trail, trail]
      cases hb : next a with
      | none => rfl
      | some b =>
        by_cases hSeen : key b ∈ seen
        · simp only [if_pos hSeen]
        · have hLess := hShrink b hb hSeen
          omega
    | succ m =>
      rw [trail, trail]
      cases hb : next a with
      | none => rfl
      | some b =>
        by_cases hSeen : key b ∈ seen
        · simp only [if_pos hSeen]
        · have hLess := hShrink b hb hSeen
          have hRest : trail next key n (key b :: seen) b = trail next key m (key b :: seen) b :=
            ih b (by omega) (by omega)
          simp only [if_neg hSeen, hRest]

/-! ## Reading a set of rows -/

theorem nodup_eraseDups [BEq α] [LawfulBEq α] (xs : List α) : xs.eraseDups.Nodup := by
  induction hLength : xs.length using Nat.strongRecOn generalizing xs with
  | ind n ih =>
    cases xs with
    | nil => exact List.nodup_nil
    | cons x xs =>
      rw [List.eraseDups_cons, List.nodup_cons]
      refine ⟨by simp [List.mem_eraseDups], ih _ ?_ _ rfl⟩
      rw [← hLength, List.length_cons]
      exact Nat.lt_succ_of_le (List.length_filter_le _ _)

theorem perm_eraseDups [BEq α] [LawfulBEq α] {xs ys : List α} (h : ∀ a, a ∈ xs ↔ a ∈ ys) :
    xs.eraseDups.Perm ys.eraseDups := by
  refine (List.perm_ext_iff_of_nodup (nodup_eraseDups _) (nodup_eraseDups _)).mpr fun a => ?_
  rw [List.mem_eraseDups, List.mem_eraseDups]
  exact h a

theorem length_eraseDups_cons [BEq α] [LawfulBEq α] (a : α) (xs : List α) :
    (a :: xs).eraseDups.length = xs.eraseDups.length + if a ∈ xs then 0 else 1 := by
  by_cases h : a ∈ xs
  · have hSame : (a :: xs).eraseDups.Perm xs.eraseDups := perm_eraseDups fun b => by
      rw [List.mem_cons]
      exact or_iff_right_of_imp fun hEq => hEq ▸ h
    rw [hSame.length_eq, if_pos h]
    rfl
  · have hRest : xs.filter (fun b => !b == a) = xs :=
      List.filter_eq_self.mpr fun b hb => by simpa using fun hEq : b = a => h (hEq ▸ hb)
    rw [List.eraseDups_cons, hRest, List.length_cons, if_neg h]

theorem length_le_one_iff {xs : List α} (hNodup : xs.Nodup) :
    xs.length ≤ 1 ↔ ∀ a ∈ xs, ∀ b ∈ xs, a = b := by
  match xs with
  | [] => simp
  | [a] => simp
  | a :: b :: xs =>
    have hNe : a ≠ b := fun hEq => (List.nodup_cons.mp hNodup).1 (hEq ▸ List.mem_cons_self)
    constructor
    · intro hLength
      simp only [List.length_cons] at hLength
      omega
    · intro hSame
      exact absurd (hSame a (by simp) b (by simp)) hNe

theorem countP_le_one_iff {p : α → Bool} {xs : List α} (hNodup : xs.Nodup) :
    xs.countP p ≤ 1 ↔ ∀ a ∈ xs, ∀ b ∈ xs, p a = true → p b = true → a = b := by
  rw [List.countP_eq_length_filter, length_le_one_iff (hNodup.filter _)]
  simp only [List.mem_filter]
  constructor
  · exact fun h a ha b hb hpa hpb => h a ⟨ha, hpa⟩ b ⟨hb, hpb⟩
  · exact fun h a ha b hb => h a ha.1 b hb.1 ha.2 hb.2

theorem sum_indicator (p : α → Bool) (xs : List α) : (xs.map fun a => if p a = true then 1 else 0).sum = xs.countP p := by
  induction xs with
  | nil => rfl
  | cons a xs ih => rw [List.map_cons, List.sum_cons, ih, List.countP_cons, Nat.add_comm]

/-- Keys that share no row hold at most as many rows as there are. -/
theorem sum_countP_le {ι : Type*} {is : List ι} (hNodup : is.Nodup) {p : ι → α → Bool} {xs : List α}
    (hOne : ∀ a ∈ xs, ∀ i ∈ is, ∀ j ∈ is, p i a = true → p j a = true → i = j) :
    (is.map fun i => xs.countP (p i)).sum ≤ xs.length := by
  induction xs with
  | nil => simp
  | cons a xs ih =>
    obtain ⟨hHead, hRest⟩ := List.forall_mem_cons.mp hOne
    have hCount := (countP_le_one_iff hNodup).mpr hHead
    have hRows := ih hRest
    simp only [List.countP_cons, List.sum_map_add, sum_indicator, List.length_cons]
    omega

/-- If moreover every row has a key, they hold them all. -/
theorem sum_countP_eq {ι : Type*} {is : List ι} (hNodup : is.Nodup) {p : ι → α → Bool} {xs : List α}
    (hOne : ∀ a ∈ xs, ∀ i ∈ is, ∀ j ∈ is, p i a = true → p j a = true → i = j)
    (hSome : ∀ a ∈ xs, ∃ i ∈ is, p i a = true) : (is.map fun i => xs.countP (p i)).sum = xs.length := by
  induction xs with
  | nil => simp
  | cons a xs ih =>
    obtain ⟨hHead, hRest⟩ := List.forall_mem_cons.mp hOne
    obtain ⟨hKey, hSome⟩ := List.forall_mem_cons.mp hSome
    have hCount := (countP_le_one_iff hNodup).mpr hHead
    have hPos : 0 < is.countP fun i => p i a := List.countP_pos_iff.mpr hKey
    have hRows := ih hRest hSome
    simp only [List.countP_cons, List.sum_map_add, sum_indicator, List.length_cons]
    omega

def single : List α → Option α
  | [a] => some a
  | _ => none

theorem single_eq_some {xs : List α} {a : α} : single xs = some a ↔ xs = [a] := by
  unfold single
  split <;> simp_all

theorem single_perm {xs ys : List α} (h : xs.Perm ys) : single xs = single ys := by
  refine Option.ext fun a => ?_
  rw [single_eq_some, single_eq_some]
  constructor
  · rintro rfl
    exact (List.singleton_perm.mp h).symm
  · rintro rfl
    exact List.perm_singleton.mp h

/-- Rows with distinct keys are sorted by their keys to one list. -/
theorem insertionSort_perm {le : α → α → Prop} [DecidableRel le] (hTotal : ∀ a b, le a b ∨ le b a)
    (hTrans : ∀ a b c, le a b → le b c → le a c) {xs ys : List α}
    (hAnti : ∀ a ∈ xs, ∀ b ∈ xs, le a b → le b a → a = b) (h : xs.Perm ys) :
    xs.insertionSort le = ys.insertionSort le := by
  have : Std.Total le := ⟨hTotal⟩
  have : IsTrans α le := ⟨hTrans⟩
  have hxs := List.perm_insertionSort le xs
  have hys := List.perm_insertionSort le ys
  refine List.Perm.eq_of_pairwise ?_ (List.pairwise_insertionSort le xs) (List.pairwise_insertionSort le ys)
    (hxs.trans (h.trans hys.symm))
  intro a b ha hb hab hba
  exact hAnti a (hxs.mem_iff.mp ha) b (h.mem_iff.mpr (hys.mem_iff.mp hb)) hab hba

/-- Rows that the comparison leaves open keep their order. -/
theorem filter_insertionSort {le : α → α → Prop} [DecidableRel le] (hTotal : ∀ a b, le a b ∨ le b a)
    (hTrans : ∀ a b c, le a b → le b c → le a c) {p : α → Bool} {xs : List α}
    (hOpen : ∀ a ∈ xs, ∀ b ∈ xs, p a = true → p b = true → le a b) : (xs.insertionSort le).filter p = xs.filter p := by
  have : Std.Total le := ⟨hTotal⟩
  have : IsTrans α le := ⟨hTrans⟩
  have hSorted : (xs.filter p).Pairwise le := by
    refine List.Pairwise.imp_of_mem (fun ha hb _ => ?_) (List.pairwise_of_forall (R := fun _ _ => True) fun _ _ => trivial)
    obtain ⟨ha, hpa⟩ := List.mem_filter.mp ha
    obtain ⟨hb, hpb⟩ := List.mem_filter.mp hb
    exact hOpen _ ha _ hb hpa hpb
  have hSub : (xs.filter p).Sublist ((xs.insertionSort le).filter p) := by
    have hRows := (List.sublist_insertionSort hSorted List.filter_sublist).filter p
    simpa only [List.filter_filter, Bool.and_self] using hRows
  exact (hSub.eq_of_length ((List.perm_insertionSort le xs).filter p).length_eq.symm).symm

/-- A comparison need only order the rows that are sorted. -/
theorem pairwise_mergeSort {le : α → α → Bool} {xs : List α} (hTotal : ∀ a ∈ xs, ∀ b ∈ xs, (le a b || le b a) = true)
    (hTrans : ∀ a ∈ xs, ∀ b ∈ xs, ∀ c ∈ xs, le a b = true → le b c = true → le a c = true) :
    (xs.mergeSort le).Pairwise fun a b => le a b = true := by
  have hAttach : (xs.attach.mergeSort fun a b => le a.1 b.1).map Subtype.val = xs.mergeSort le := by
    rw [List.map_mergeSort (s := le) fun _ _ _ _ => rfl, List.attach_map_subtype_val]
  rw [← hAttach]
  refine List.pairwise_map.mpr (List.pairwise_mergeSort ?_ ?_ xs.attach)
  · exact fun a b c => hTrans a.1 a.2 b.1 b.2 c.1 c.2
  · exact fun a b => hTotal a.1 a.2 b.1 b.2

theorem mergeSort_perm {le : α → α → Bool} {xs ys : List α} (hTotal : ∀ a ∈ xs, ∀ b ∈ xs, (le a b || le b a) = true)
    (hTrans : ∀ a ∈ xs, ∀ b ∈ xs, ∀ c ∈ xs, le a b = true → le b c = true → le a c = true)
    (hAnti : ∀ a ∈ xs, ∀ b ∈ xs, le a b = true → le b a = true → a = b) (h : xs.Perm ys) :
    xs.mergeSort le = ys.mergeSort le := by
  have hBack (a : α) (ha : a ∈ ys) : a ∈ xs := h.mem_iff.mpr ha
  refine List.Perm.eq_of_pairwise ?_ (pairwise_mergeSort hTotal hTrans) (pairwise_mergeSort ?_ ?_)
    ((List.mergeSort_perm xs le).trans (h.trans (List.mergeSort_perm ys le).symm))
  · intro a b ha hb
    exact hAnti a (List.mem_mergeSort.mp ha) b (hBack b (List.mem_mergeSort.mp hb))
  · exact fun a ha b hb => hTotal a (hBack a ha) b (hBack b hb)
  · exact fun a ha b hb c hc => hTrans a (hBack a ha) b (hBack b hb) c (hBack c hc)

/-- Sorted rows agree in what is read of them, if rows that the sort leaves open agree. -/
theorem sorted_map_perm {le : α → α → Prop} [DecidableRel le] (hTotal : ∀ a b, le a b ∨ le b a)
    (hTrans : ∀ a b c, le a b → le b c → le a c) {β : Type*} {read : α → β} {le' : β → β → Prop}
    (hRead : ∀ a b, le a b → le' (read a) (read b)) {xs ys : List α}
    (hAnti : ∀ a ∈ xs, ∀ b ∈ xs, le' (read a) (read b) → le' (read b) (read a) → read a = read b) (h : xs.Perm ys) :
    (xs.insertionSort le).map read = (ys.insertionSort le).map read := by
  have : Std.Total le := ⟨hTotal⟩
  have : IsTrans α le := ⟨hTrans⟩
  have hxs := List.perm_insertionSort le xs
  have hys := List.perm_insertionSort le ys
  have hSortedXs : ((xs.insertionSort le).map read).Pairwise le' :=
    List.pairwise_map.mpr ((List.pairwise_insertionSort le xs).imp (hRead _ _))
  have hSortedYs : ((ys.insertionSort le).map read).Pairwise le' :=
    List.pairwise_map.mpr ((List.pairwise_insertionSort le ys).imp (hRead _ _))
  refine List.Perm.eq_of_pairwise ?_ hSortedXs hSortedYs ((hxs.trans (h.trans hys.symm)).map read)
  intro v w hv hw hvw hwv
  obtain ⟨a, ha, rfl⟩ := List.mem_map.mp hv
  obtain ⟨b, hb, rfl⟩ := List.mem_map.mp hw
  exact hAnti a (hxs.mem_iff.mp ha) b (h.mem_iff.mpr (hys.mem_iff.mp hb)) hvw hwv

theorem perm_nil_iff {xs ys : List α} (h : xs.Perm ys) : xs = [] ↔ ys = [] := by
  rw [← List.isEmpty_iff, h.isEmpty_eq, List.isEmpty_iff]

theorem find?_perm {p : α → Bool} {xs ys : List α} (h : xs.Perm ys)
    (hOne : ∀ a ∈ xs, ∀ b ∈ xs, p a = true → p b = true → a = b) : xs.find? p = ys.find? p := by
  cases hx : xs.find? p with
  | none =>
    refine (List.find?_eq_none.mpr fun b hb => ?_).symm
    exact List.find?_eq_none.mp hx b (h.mem_iff.mpr hb)
  | some a =>
    have ha := List.mem_of_find?_eq_some hx
    cases hy : ys.find? p with
    | none => exact absurd (List.find?_some hx) (List.find?_eq_none.mp hy a (h.mem_iff.mp ha))
    | some b =>
      have hb := h.mem_iff.mpr (List.mem_of_find?_eq_some hy)
      exact congrArg some (hOne a ha b hb (List.find?_some hx) (List.find?_some hy))

/-! ## Groups of a set of rows -/

theorem mem_groups {key : α → Option κ} {xs : List α} {group : κ × List α} :
    group ∈ groups key xs ↔ (∃ a ∈ xs, key a = some group.1) ∧ group.2 = xs.filter fun a => key a = some group.1 := by
  rw [groups, List.mem_map]
  constructor
  · rintro ⟨k, hk, rfl⟩
    rw [List.mem_eraseDups, List.mem_filterMap] at hk
    exact ⟨hk, rfl⟩
  · rintro ⟨hKey, hRows⟩
    refine ⟨group.1, List.mem_eraseDups.mpr (List.mem_filterMap.mpr hKey), ?_⟩
    rw [← hRows]

/-- What is read of each group is read of the groups of the same rows in another order, if the
order within a group is not read. -/
theorem groups_map_perm {β : Type*} {key : α → Option κ} {xs ys : List α} (h : xs.Perm ys) {f g : κ × List α → β}
    (hSame : ∀ k, f (k, xs.filter fun a => key a = some k) = g (k, ys.filter fun a => key a = some k)) :
    ((groups key xs).map f).Perm ((groups key ys).map g) := by
  rw [groups, groups, List.map_map, List.map_map]
  have hKeys : (xs.filterMap key).eraseDups.Perm (ys.filterMap key).eraseDups :=
    perm_eraseDups fun k => (h.filterMap key).mem_iff
  refine (hKeys.map _).trans (List.Perm.of_eq (List.map_congr_left fun k _ => ?_))
  exact hSame k

/-- The one element of a list with a given value of a key that tells its elements apart. -/
theorem filter_eq_singleton {f : α → κ} {l : List α} {a : α}
    (h : l.Pairwise fun x y => f x ≠ f y) (ha : a ∈ l) : l.filter (fun x => f x = f a) = [a] := by
  induction l with
  | nil => cases ha
  | cons x rest ih =>
    obtain ⟨hHead, hRest⟩ := List.pairwise_cons.mp h
    obtain rfl | hMem := List.mem_cons.mp ha
    · simpa using fun y hy => (hHead y hy).symm
    · simpa [hHead a hMem] using ih hRest hMem

/-- Rows are those of their keys, key by key. -/
theorem flatMap_filter_perm {key : α → κ} {ks : List κ} (hKeys : ks.Nodup) {xs : List α}
    (h : ∀ a ∈ xs, key a ∈ ks) : (ks.flatMap fun k => xs.filter fun a => key a = k).Perm xs := by
  induction ks generalizing xs with
  | nil =>
    have hNone : xs = [] := List.eq_nil_iff_forall_not_mem.mpr fun a ha => List.not_mem_nil (h a ha)
    rw [hNone]
    exact List.Perm.nil
  | cons k ks ih =>
    obtain ⟨hNew, hKeys⟩ := List.nodup_cons.mp hKeys
    rw [List.flatMap_cons]
    refine List.Perm.trans ?_ (List.filter_append_perm (fun a => key a = k) xs)
    refine List.Perm.append_left _ ?_
    have hOthers : ∀ a ∈ xs.filter fun a => !decide (key a = k), key a ∈ ks := by
      intro a ha
      simp only [List.mem_filter, Bool.not_eq_true', decide_eq_false_iff_not] at ha
      exact (List.mem_cons.mp (h a ha.1)).resolve_left ha.2
    refine List.Perm.trans (List.Perm.of_eq ?_) (ih hKeys hOthers)
    simp only [List.flatMap_def]
    congr 1
    refine List.map_congr_left fun k' hk' => ?_
    rw [List.filter_filter]
    refine List.filter_congr fun a _ => ?_
    have hOther : k' ≠ k := fun hSame => hNew (hSame ▸ hk')
    by_cases hHere : key a = k'
    · simp [hHere, hOther]
    · simp [hHere]

end Indexes
