import Mathlib.Data.List.Sort
import Mathlib.Data.List.Nodup
import Mathlib.Logic.Function.Basic
import GreenPms.Library.Transition

/-! # Numbered feeds with one head row for each group

Transactions number their entries from the head of a group, whose row they hold until they end;
readers follow the committed entries with a cursor while transactions are open.
-/

namespace SequencedFeed

open TransitionSystem

variable {κ ι β γ : Type*} {most : Nat}

structure Entry (κ ι β : Type*) where
  group : κ
  sequence : Nat
  key : ι
  body : β
  deriving DecidableEq

structure Tables (κ ι β : Type*) where
  heads : κ → Option Nat
  entries : List (Entry κ ι β)

/-- What an emission leaves in the head row of its group, and the entry it inserts. -/
structure Write (κ ι β : Type*) where
  group : κ
  head : Nat
  entry : Option (Entry κ ι β)

/-- The rows of the heads that a transaction holds, and the entries it has inserted. -/
structure Transaction (κ ι β : Type*) where
  holds : κ → Bool
  heads : κ → Option Nat
  entries : List (Entry κ ι β)

structure Reader (κ ι β : Type*) where
  group : κ
  cursor : Nat
  received : List (Entry κ ι β)

def Reader.advance (r : Reader κ ι β) (rows : List (Entry κ ι β)) (next : Nat) : Reader κ ι β :=
  ⟨r.group, next, r.received ++ rows⟩

structure State (κ ι β : Type*) where
  committed : Tables κ ι β
  transactions : Nat → Transaction κ ι β
  readers : Nat → Reader κ ι β

inductive Event (γ : Type*) where
  | emit (transaction : Nat) (call : γ)
  | commit (transaction : Nat)
  | rollback (transaction : Nat)
  | read (reader : Nat) (limit : Int)

namespace Tables

def empty : Tables κ ι β := ⟨fun _ => none, []⟩

def last (t : Tables κ ι β) (g : κ) : Nat := (t.heads g).getD 0

theorem filter_after (after low : Nat) {count : Nat} {rows : List (Entry κ ι β)}
    (h : rows.map Entry.sequence = List.range' (low + 1) count) :
    (rows.filter fun e => low + after < e.sequence) = rows.drop after := by
  induction after generalizing low count rows with
  | zero =>
    apply List.filter_eq_self.mpr
    intro e he
    have hMem : e.sequence ∈ List.range' (low + 1) count := h ▸ List.mem_map_of_mem he
    have hLow := (List.mem_range'_1.mp hMem).1
    exact decide_eq_true (by omega)
  | succ after ih =>
    cases rows with
    | nil => rfl
    | cons e rest =>
      cases count with
      | zero => cases h
      | succ count =>
        obtain ⟨hFirst, hRest⟩ := List.cons.inj (h.trans List.range'_succ)
        rw [List.filter_cons_of_neg (by simp only [hFirst, decide_eq_true_eq]; omega), List.drop_succ_cons,
          ← ih _ hRest]
        simp only [Nat.add_assoc, Nat.add_comm 1 after]

variable [DecidableEq κ]

def ofGroup (t : Tables κ ι β) (g : κ) : List (Entry κ ι β) := t.entries.filter fun e => e.group = g

def bySequence (a b : Entry κ ι β) : Prop := a.sequence ≤ b.sequence

instance : DecidableRel (bySequence (κ := κ) (ι := ι) (β := β)) := fun a b => Nat.decLe a.sequence b.sequence

/-- The entries of a group after a cursor, in order, and the cursor behind them. -/
def page (t : Tables κ ι β) (g : κ) (after limit : Nat) : List (Entry κ ι β) × Nat :=
  let rows := (((t.ofGroup g).filter fun e => after < e.sequence).insertionSort bySequence).take limit
  (rows, (rows.getLast?.map Entry.sequence).getD after)

/-! ## Feeds without gaps -/

/-- Each group has its entries numbered from one to the head, and each key has one entry. -/
structure Gapless (most : Nat) (t : Tables κ ι β) : Prop where
  bounded : ∀ g, t.last g ≤ most
  numbered : ∀ g, (t.ofGroup g).map Entry.sequence = List.range' 1 (t.last g)
  keyed : (t.entries.map Entry.key).Nodup

theorem Gapless.length_ofGroup {t : Tables κ ι β} (h : t.Gapless most) (g : κ) : (t.ofGroup g).length = t.last g := by
  rw [← List.length_map Entry.sequence, h.numbered g, List.length_range']

theorem Gapless.mem_take {t : Tables κ ι β} (h : t.Gapless most) (g : κ) (cursor : Nat) (e : Entry κ ι β) :
    e ∈ (t.ofGroup g).take cursor ↔ e ∈ t.entries ∧ e.group = g ∧ e.sequence ≤ cursor := by
  have hAt : ∀ (i : Nat) (hi : i < (t.ofGroup g).length), ((t.ofGroup g)[i]).sequence = 1 + i := by
    intro i hi
    have hLength : i < ((t.ofGroup g).map Entry.sequence).length := by rwa [List.length_map]
    have hSame : ((t.ofGroup g).map Entry.sequence)[i] = 1 + i := by
      simp only [h.numbered g, List.getElem_range', Nat.one_mul]
    rwa [List.getElem_map] at hSame
  rw [List.mem_take_iff_getElem]
  constructor
  · rintro ⟨i, hi, rfl⟩
    have hBoth := Nat.lt_min.mp hi
    obtain ⟨hEntry, hGroup⟩ := List.mem_filter.mp (List.getElem_mem hBoth.2)
    refine ⟨hEntry, of_decide_eq_true hGroup, ?_⟩
    rw [hAt i hBoth.2]
    omega
  · rintro ⟨hEntry, hGroup, hCursor⟩
    have hMem : e ∈ t.ofGroup g := List.mem_filter.mpr ⟨hEntry, decide_eq_true hGroup⟩
    obtain ⟨i, hi, rfl⟩ := List.mem_iff_getElem.mp hMem
    rw [hAt i hi] at hCursor
    exact ⟨i, Nat.lt_min.mpr ⟨by omega, hi⟩, rfl⟩

/-- A page is the next piece of the group, and its cursor stands at the end of that piece. -/
theorem Gapless.page_eq {t : Tables κ ι β} (h : t.Gapless most) (g : κ) {after : Nat} (hAfter : after ≤ t.last g)
    (limit : Nat) :
    t.page g after limit = (((t.ofGroup g).drop after).take limit, min (after + limit) (t.last g)) := by
  have hFilter : ((t.ofGroup g).filter fun e => after < e.sequence) = (t.ofGroup g).drop after := by
    simpa using filter_after after 0 (h.numbered g)
  have hDropped : ((t.ofGroup g).drop after).map Entry.sequence = List.range' (1 + after) (t.last g - after) := by
    rw [List.map_drop, h.numbered g, List.drop_range', Nat.mul_one]
  have hSorted : ((t.ofGroup g).drop after).Pairwise bySequence := by
    have hPairs := List.pairwise_map.mp (hDropped ▸ List.pairwise_le_range')
    exact hPairs
  have hRows : ((((t.ofGroup g).drop after).take limit).map Entry.sequence) =
      List.range' (1 + after) (min limit (t.last g - after)) := by
    rw [List.map_take, hDropped]
    obtain hShort | hLong := Nat.le_total (t.last g - after) limit
    · rw [List.take_range'_of_length_le hShort, Nat.min_eq_right hShort]
    · rw [List.take_range'_of_length_ge hLong, Nat.min_eq_left hLong]
  rw [page, hFilter, hSorted.insertionSort_eq]
  refine Prod.ext rfl ?_
  dsimp only
  rw [← List.getLast?_map, hRows, List.getLast?_range']
  split
  · dsimp only [Option.getD]
    omega
  · dsimp only [Option.getD]
    omega

end Tables

namespace Transaction

def idle : Transaction κ ι β := ⟨fun _ => false, fun _ => none, []⟩

/-- The tables as the transaction sees them, and as its commit leaves them. -/
def view (x : Transaction κ ι β) (t : Tables κ ι β) : Tables κ ι β :=
  ⟨fun g => if x.holds g then x.heads g else t.heads g, t.entries ++ x.entries⟩

variable [DecidableEq κ]

def write (x : Transaction κ ι β) (w : Write κ ι β) : Transaction κ ι β :=
  { holds := Function.update x.holds w.group true
    heads := Function.update x.heads w.group (some w.head)
    entries := x.entries ++ w.entry.toList }

end Transaction

structure Code (κ ι β γ : Type*) where
  emit : Tables κ ι β → γ → Except String (Write κ ι β)
  read : Tables κ ι β → κ → Nat → Int → Except String (List (Entry κ ι β) × Nat)

variable [DecidableEq κ]

/-- An emission takes the next number for a new key and keeps the head for an old one. -/
def Tables.Numbers (most : Nat) (t : Tables κ ι β) (w : Write κ ι β) : Prop :=
  (w.entry = none ∧ w.head = t.last w.group) ∨
    ∃ e, w.entry = some e ∧ e.group = w.group ∧ e.sequence = w.head ∧ w.head = t.last w.group + 1 ∧ w.head ≤ most ∧
      ∀ f ∈ t.entries, f.key ≠ e.key

omit [DecidableEq κ] in
theorem Tables.Numbers.group {t : Tables κ ι β} {w : Write κ ι β} (h : t.Numbers most w) {e : Entry κ ι β}
    (he : e ∈ w.entry) : e.group = w.group := by
  obtain ⟨hNone, -⟩ | ⟨f, hSome, hGroup, -⟩ := h
  · rw [hNone] at he
    cases he
  · obtain rfl : f = e := Option.some.inj (hSome.symm.trans he)
    exact hGroup

structure Code.Lawful (most : Nat) (c : Code κ ι β γ) : Prop where
  emits : ∀ t call w, c.emit t call = .ok w → t.Numbers most w
  reads : ∀ t g after limit result, c.read t g after limit = .ok result →
    ∃ n, 1 ≤ n ∧ result = t.page g after n
  answers : ∀ t g after limit, after ≤ most → 1 ≤ limit → limit ≤ 100 → ∃ result, c.read t g after limit = .ok result

variable (c : Code κ ι β γ)

/-- No other transaction holds the head of the group, nor has inserted the key. -/
def Free (s : State κ ι β) (x : Nat) (w : Write κ ι β) : Prop :=
  ∀ y, y ≠ x → (s.transactions y).holds w.group = false ∧
    ∀ e ∈ w.entry, ∀ f ∈ (s.transactions y).entries, f.key ≠ e.key

inductive Step : State κ ι β → Event γ → State κ ι β → Prop
  | emit {s x call w} : c.emit ((s.transactions x).view s.committed) call = .ok w → Free s x w →
      Step s (.emit x call)
        { s with transactions := Function.update s.transactions x ((s.transactions x).write w) }
  | commit (s x) : Step s (.commit x)
      { s with
        committed := (s.transactions x).view s.committed
        transactions := Function.update s.transactions x .idle }
  | rollback (s x) : Step s (.rollback x)
      { s with transactions := Function.update s.transactions x .idle }
  | read {s r limit rows next} :
      c.read s.committed (s.readers r).group (s.readers r).cursor limit = .ok (rows, next) →
      Step s (.read r limit)
        { s with
          readers := Function.update s.readers r ((s.readers r).advance rows next) }

/-- The feed starts empty, with readers at the start. -/
def system : System (State κ ι β) (Event γ) where
  init s := s.committed = .empty ∧ (∀ x, s.transactions x = .idle) ∧
    ∀ r, (s.readers r).cursor = 0 ∧ (s.readers r).received = []
  step := Step c

/-! ## What holds of every reachable state -/

/-- A reader holds the entries of its group up to its cursor. -/
def Reader.Follows (r : Reader κ ι β) (t : Tables κ ι β) : Prop :=
  r.cursor ≤ t.last r.group ∧ r.received = (t.ofGroup r.group).take r.cursor

/-- Two transactions hold no head together and have inserted no key both. -/
structure Transaction.Apart (x y : Transaction κ ι β) : Prop where
  heads : ∀ g, x.holds g = true → y.holds g = false
  keys : ∀ e ∈ x.entries, ∀ f ∈ y.entries, e.key ≠ f.key

structure Ok (most : Nat) (s : State κ ι β) : Prop where
  committed : s.committed.Gapless most
  views : ∀ x, ((s.transactions x).view s.committed).Gapless most
  own : ∀ x, ∀ e ∈ (s.transactions x).entries, (s.transactions x).holds e.group = true
  apart : ∀ x y, x ≠ y → (s.transactions x).Apart (s.transactions y)
  readers : ∀ r, (s.readers r).Follows s.committed

variable {c} {s : State κ ι β}

namespace Tables

theorem Gapless.empty : (empty : Tables κ ι β).Gapless most := ⟨fun _ => Nat.zero_le _, fun _ => rfl, List.nodup_nil⟩

def write (t : Tables κ ι β) (w : Write κ ι β) : Tables κ ι β :=
  ⟨Function.update t.heads w.group (some w.head), t.entries ++ w.entry.toList⟩

theorem last_write (t : Tables κ ι β) (w : Write κ ι β) (g : κ) :
    (t.write w).last g = if g = w.group then w.head else t.last g := by
  simp only [last, write]
  split
  case isTrue hGroup =>
    subst hGroup
    rw [Function.update_self]
    rfl
  case isFalse hGroup =>
    rw [Function.update_of_ne hGroup]

theorem ofGroup_write (t : Tables κ ι β) (w : Write κ ι β) (g : κ) :
    (t.write w).ofGroup g = t.ofGroup g ++ w.entry.toList.filter fun e => e.group = g :=
  List.filter_append ..

theorem Gapless.write {t : Tables κ ι β} (h : t.Gapless most) {w : Write κ ι β} (hw : t.Numbers most w) :
    (t.write w).Gapless most := by
  obtain ⟨hNone, hHead⟩ | ⟨e, hSome, hGroup, hSequence, hHead, hMost, hNew⟩ := hw
  · constructor
    · intro g
      rw [last_write]
      split
      · exact hHead ▸ h.bounded w.group
      · exact h.bounded g
    · intro g
      rw [ofGroup_write, last_write, hNone, Option.toList_none, List.filter_nil, List.append_nil, h.numbered g]
      split
      case isTrue hSame =>
        rw [hSame, hHead]
      case isFalse => rfl
    · rw [Tables.write, hNone, Option.toList_none, List.append_nil]
      exact h.keyed
  · constructor
    · intro g
      rw [last_write]
      split
      · exact hMost
      · exact h.bounded g
    · intro g
      rw [ofGroup_write, last_write, hSome, Option.toList_some]
      split
      case isTrue hSame =>
        rw [List.filter_cons_of_pos (by simp [hGroup, hSame]), List.filter_nil, List.map_append, h.numbered g,
          hSame, hHead, List.range'_1_concat, List.map_cons, List.map_nil, hSequence, hHead, Nat.add_comm]
      case isFalse hOther =>
        have hNot : e.group ≠ g := fun hSame => hOther (hSame.symm.trans hGroup)
        rw [List.filter_cons_of_neg (by simp [hNot]), List.filter_nil, List.append_nil, h.numbered g]
    · rw [Tables.write, hSome, Option.toList_some, List.map_append, List.nodup_append]
      refine ⟨h.keyed, List.nodup_singleton _, ?_⟩
      rintro _ hOld _ hAdded rfl
      obtain ⟨f, hf, hKey⟩ := List.mem_map.mp hOld
      exact hNew f hf (hKey.trans (List.mem_singleton.mp hAdded))

end Tables

/-- What a reader has received stays all that stands up to its cursor. -/
theorem Reader.Follows.grow {r : Reader κ ι β} {t u : Tables κ ι β} (h : r.Follows t) (ht : t.Gapless most)
    (hu : u.Gapless most) (hGrows : t.ofGroup r.group <+: u.ofGroup r.group) : r.Follows u := by
  obtain ⟨more, hMore⟩ := hGrows
  have hLength : t.last r.group ≤ u.last r.group := by
    rw [← ht.length_ofGroup, ← hu.length_ofGroup, ← hMore, List.length_append]
    exact Nat.le_add_right _ _
  refine ⟨h.1.trans hLength, ?_⟩
  rw [h.2, ← hMore, List.take_append_of_le_length]
  rw [ht.length_ofGroup]
  exact h.1

namespace Transaction

variable {x y : Transaction κ ι β} {t : Tables κ ι β} {g : κ}

omit [DecidableEq κ] in
@[simp] theorem view_idle (t : Tables κ ι β) : (idle : Transaction κ ι β).view t = t := by
  simp [view, idle]

omit [DecidableEq κ] in
theorem last_view (x : Transaction κ ι β) (t : Tables κ ι β) (g : κ) :
    (x.view t).last g = if x.holds g then (x.heads g).getD 0 else t.last g := by
  simp only [Tables.last, view]
  split <;> rfl

theorem ofGroup_view (x : Transaction κ ι β) (t : Tables κ ι β) (g : κ) :
    (x.view t).ofGroup g = t.ofGroup g ++ x.entries.filter fun e => e.group = g :=
  List.filter_append ..

theorem view_write (x : Transaction κ ι β) (w : Write κ ι β) (t : Tables κ ι β) :
    (x.write w).view t = (x.view t).write w := by
  simp only [view, write, Tables.write, List.append_assoc, Tables.mk.injEq, and_true]
  funext g
  by_cases hGroup : g = w.group
  · subst hGroup
    simp only [Function.update_self, if_true]
  · simp only [Function.update_of_ne hGroup]

@[simp] theorem holds_write (x : Transaction κ ι β) (w : Write κ ι β) : (x.write w).holds w.group = true :=
  Function.update_self ..

theorem holds_write_of_ne (x : Transaction κ ι β) {w : Write κ ι β} (h : g ≠ w.group) :
    (x.write w).holds g = x.holds g :=
  Function.update_of_ne h ..

/-- A group whose head is not held is seen as it is committed. -/
theorem view_unheld (hOwn : ∀ e ∈ x.entries, x.holds e.group = true) (h : x.holds g = false) :
    (x.view t).last g = t.last g ∧ (x.view t).ofGroup g = t.ofGroup g := by
  refine ⟨by rw [last_view, h]; rfl, ?_⟩
  rw [ofGroup_view, List.filter_eq_nil_iff.mpr, List.append_nil]
  intro e he hGroup
  obtain rfl := of_decide_eq_true hGroup
  exact absurd (hOwn e he) (by simp [h])

/-- What a transaction sees of a group that it holds does not change when another one commits. -/
theorem view_view (hOwn : ∀ e ∈ y.entries, y.holds e.group = true) (hx : x.holds g = true)
    (hy : y.holds g = false) :
    (x.view (y.view t)).last g = (x.view t).last g ∧ (x.view (y.view t)).ofGroup g = (x.view t).ofGroup g := by
  constructor
  · simp only [last_view, hx, if_true]
  · rw [ofGroup_view, (view_unheld hOwn hy).2, ← ofGroup_view]

omit [DecidableEq κ] in
theorem Apart.symm (h : x.Apart y) : y.Apart x := by
  refine ⟨fun g hy => Bool.eq_false_iff.mpr fun hx => ?_, fun e he f hf hKey => h.keys f hf e he hKey.symm⟩
  exact absurd hy (by simp [h.heads g hx])

omit [DecidableEq κ] in
theorem Apart.idle (x : Transaction κ ι β) : Apart .idle x :=
  ⟨fun _ hHeld => absurd hHeld (Bool.false_ne_true), fun _ he => absurd he List.not_mem_nil⟩

omit [DecidableEq κ] in
/-- One transaction changes and stays apart from the others. -/
theorem Apart.update {xs : Nat → Transaction κ ι β} (h : ∀ x y, x ≠ y → (xs x).Apart (xs y)) {z : Nat}
    {new : Transaction κ ι β} (hNew : ∀ y, y ≠ z → new.Apart (xs y)) (x y : Nat) (hxy : x ≠ y) :
    (Function.update xs z new x).Apart (Function.update xs z new y) := by
  by_cases hx : x = z
  · subst hx
    rw [Function.update_self, Function.update_of_ne hxy.symm]
    exact hNew y hxy.symm
  · rw [Function.update_of_ne hx]
    by_cases hy : y = z
    · subst hy
      rw [Function.update_self]
      exact (hNew x hx).symm
    · rw [Function.update_of_ne hy]
      exact h x y hxy

end Transaction

namespace Ok

theorem init (h : (system c).init s) : Ok most s := by
  obtain ⟨hCommitted, hIdle, hStart⟩ := h
  constructor
  case committed => exact hCommitted ▸ Tables.Gapless.empty
  case views =>
    intro x
    rw [hIdle x, Transaction.view_idle, hCommitted]
    exact Tables.Gapless.empty
  case own =>
    intro x e he
    rw [hIdle x] at he
    cases he
  case apart =>
    intro x y _
    rw [hIdle x]
    exact Transaction.Apart.idle _
  case readers =>
    intro r
    obtain ⟨hCursor, hReceived⟩ := hStart r
    rw [Reader.Follows, hCursor, hReceived]
    exact ⟨Nat.zero_le _, rfl⟩

theorem emit (h : Ok most s) {x : Nat} {w : Write κ ι β} (hw : ((s.transactions x).view s.committed).Numbers most w)
    (hFree : Free s x w) :
    Ok most { s with transactions := Function.update s.transactions x ((s.transactions x).write w) } := by
  constructor
  case committed => exact h.committed
  case views =>
    refine (Function.forall_update_iff s.transactions fun _ y => (y.view s.committed).Gapless most).mpr
      ⟨?_, fun y _ => h.views y⟩
    rw [Transaction.view_write]
    exact (h.views x).write hw
  case own =>
    refine (Function.forall_update_iff s.transactions fun _ y => ∀ e ∈ y.entries, y.holds e.group = true).mpr
      ⟨fun e he => ?_, fun y _ => h.own y⟩
    obtain hOld | hNew := List.mem_append.mp he
    · by_cases hGroup : e.group = w.group
      · rw [hGroup, Transaction.holds_write]
      · rw [Transaction.holds_write_of_ne _ hGroup]
        exact h.own x e hOld
    · rw [hw.group (Option.mem_toList.mp hNew), Transaction.holds_write]
  case apart =>
    refine Transaction.Apart.update h.apart fun y hy => ⟨fun g hHeld => ?_, fun e he f hf => ?_⟩
    · by_cases hGroup : g = w.group
      · rw [hGroup]
        exact (hFree y hy).1
      · rw [Transaction.holds_write_of_ne _ hGroup] at hHeld
        exact (h.apart x y hy.symm).heads g hHeld
    · obtain hOld | hNew := List.mem_append.mp he
      · exact (h.apart x y hy.symm).keys e hOld f hf
      · exact ((hFree y hy).2 e (Option.mem_toList.mp hNew) f hf).symm
  case readers => exact h.readers

theorem rollback (h : Ok most s) (x : Nat) : Ok most { s with transactions := Function.update s.transactions x .idle } := by
  constructor
  case committed => exact h.committed
  case views =>
    refine (Function.forall_update_iff s.transactions fun _ y => (y.view s.committed).Gapless most).mpr
      ⟨?_, fun y _ => h.views y⟩
    rw [Transaction.view_idle]
    exact h.committed
  case own =>
    exact (Function.forall_update_iff s.transactions fun _ y => ∀ e ∈ y.entries, y.holds e.group = true).mpr
      ⟨fun e he => absurd he List.not_mem_nil, fun y _ => h.own y⟩
  case apart => exact Transaction.Apart.update h.apart fun y _ => .idle _
  case readers => exact h.readers

/-- The other transactions see feeds without gaps when one commits. -/
theorem view_committed (h : Ok most s) {x y : Nat} (hxy : y ≠ x) :
    ((s.transactions y).view ((s.transactions x).view s.committed)).Gapless most := by
  constructor
  · intro g
    rw [Transaction.last_view]
    split
    case isTrue hHeld =>
      have hBound := (h.views y).bounded g
      rwa [Transaction.last_view, if_pos hHeld] at hBound
    case isFalse => exact (h.views x).bounded g
  · intro g
    cases hHeld : (s.transactions y).holds g with
    | false =>
      obtain ⟨hLast, hRows⟩ := Transaction.view_unheld (t := (s.transactions x).view s.committed) (h.own y) hHeld
      rw [hLast, hRows]
      exact (h.views x).numbered g
    | true =>
      obtain ⟨hLast, hRows⟩ := Transaction.view_view (t := s.committed) (h.own x) hHeld
        ((h.apart y x hxy).heads g hHeld)
      rw [hLast, hRows]
      exact (h.views y).numbered g
  · have hFirst := (h.views x).keyed
    have hSecond := (h.views y).keyed
    rw [Transaction.view, List.map_append, List.nodup_append] at hSecond
    rw [Transaction.view, List.map_append, List.nodup_append]
    refine ⟨hFirst, hSecond.2.1, ?_⟩
    rintro _ hLeft _ hRight rfl
    rw [Transaction.view, List.map_append] at hLeft
    obtain hOld | hNew := List.mem_append.mp hLeft
    · exact hSecond.2.2 _ hOld _ hRight rfl
    · obtain ⟨e, he, rfl⟩ := List.mem_map.mp hNew
      obtain ⟨f, hf, hKey⟩ := List.mem_map.mp hRight
      exact (h.apart x y hxy.symm).keys e he f hf hKey.symm

theorem commit (h : Ok most s) (x : Nat) : Ok most { s with
    committed := (s.transactions x).view s.committed
    transactions := Function.update s.transactions x .idle } := by
  have hRolledBack := h.rollback x
  constructor
  case committed => exact h.views x
  case views =>
    refine (Function.forall_update_iff s.transactions fun _ y =>
      (y.view ((s.transactions x).view s.committed)).Gapless most).mpr ⟨?_, fun y hy => h.view_committed hy⟩
    rw [Transaction.view_idle]
    exact h.views x
  case own => exact hRolledBack.own
  case apart => exact hRolledBack.apart
  case readers =>
    intro r
    refine (h.readers r).grow h.committed (h.views x) ?_
    rw [Transaction.ofGroup_view]
    exact List.prefix_append _ _

theorem read (h : Ok most s) {r limit : Nat} {rows : List (Entry κ ι β)} {next : Nat}
    (hPage : (rows, next) = s.committed.page (s.readers r).group (s.readers r).cursor limit) :
    Ok most { s with readers := Function.update s.readers r ((s.readers r).advance rows next) } := by
  constructor
  case committed => exact h.committed
  case views => exact h.views
  case own => exact h.own
  case apart => exact h.apart
  case readers =>
    refine (Function.forall_update_iff s.readers fun _ y => y.Follows s.committed).mpr ⟨?_, fun y _ => h.readers y⟩
    obtain ⟨hCursor, hReceived⟩ := h.readers r
    rw [h.committed.page_eq _ hCursor] at hPage
    obtain ⟨rfl, rfl⟩ := Prod.mk.inj hPage
    refine ⟨Nat.min_le_right _ _, ?_⟩
    simp only [Reader.advance]
    rw [hReceived, ← List.take_add]
    obtain hShort | hLong := Nat.le_total (s.committed.last (s.readers r).group) ((s.readers r).cursor + limit)
    · rw [Nat.min_eq_right hShort, ← h.committed.length_ofGroup, List.take_length, List.take_of_length_le]
      rw [h.committed.length_ofGroup]
      exact hShort
    · rw [Nat.min_eq_left hLong]

theorem step (hLawful : c.Lawful most) {s t : State κ ι β} {e : Event γ} (h : Ok most s) (hStep : (system c).step s e t) :
    Ok most t := by
  cases hStep with
  | emit hEmit hFree => exact h.emit (hLawful.emits _ _ _ hEmit) hFree
  | commit x => exact h.commit _
  | rollback x => exact h.rollback _
  | read hRead =>
    obtain ⟨n, -, hPage⟩ := hLawful.reads _ _ _ _ _ hRead
    exact h.read hPage

end Ok

theorem reachable_ok (hLawful : c.Lawful most) (h : Reachable (system c) s) : Ok most s :=
  h.invariant (fun _ hInit => .init hInit) fun _ _ _ _ hOk hStep => hOk.step hLawful hStep

/-- The committed entries of a group are only added to. -/
theorem step_grows {t : State κ ι β} {e : Event γ} (hStep : (system c).step s e t) (g : κ) :
    s.committed.ofGroup g <+: t.committed.ofGroup g := by
  cases hStep with
  | emit => exact List.prefix_rfl
  | commit x =>
    rw [Transaction.ofGroup_view]
    exact List.prefix_append _ _
  | rollback => exact List.prefix_rfl
  | read => exact List.prefix_rfl

theorem run_grows {t : State κ ι β} {es : List (Event γ)} (hRun : Run (system c) s es t) (g : κ) :
    s.committed.ofGroup g <+: t.committed.ofGroup g := by
  induction hRun with
  | nil => exact List.prefix_rfl
  | cons hStep _ ih => exact (step_grows hStep g).trans ih

variable (c s) in
/-- Nothing is lost or repeated: the committed entries are numbered without a gap, a reader has each
of them up to its cursor once and in order, none comes later at or below the cursor, and a reader
that is behind gets on with every call. -/
structure Lossless : Prop where
  numbered : ∀ g, (s.committed.ofGroup g).map Entry.sequence = List.range' 1 (s.committed.last g)
  keyed : (s.committed.entries.map Entry.key).Nodup
  once : ∀ r, (s.readers r).received.map Entry.sequence = List.range' 1 (s.readers r).cursor
  received : ∀ r e, e ∈ (s.readers r).received ↔
    e ∈ s.committed.entries ∧ e.group = (s.readers r).group ∧ e.sequence ≤ (s.readers r).cursor
  settled : ∀ es t, Run (system c) s es t → ∀ r, ∀ e ∈ t.committed.entries, e.group = (s.readers r).group →
    e.sequence ≤ (s.readers r).cursor → e ∈ (s.readers r).received
  answers : ∀ r limit, 1 ≤ limit → limit ≤ 100 → ∃ t, (system c).step s (.read r limit) t
  advances : ∀ r limit t, (system c).step s (.read r limit) t →
    (s.readers r).cursor < s.committed.last (s.readers r).group → (s.readers r).cursor < (t.readers r).cursor

theorem reachable_lossless (hLawful : c.Lawful most) (h : Reachable (system c) s) : Lossless c s := by
  have hOk := reachable_ok hLawful h
  constructor
  case numbered => exact hOk.committed.numbered
  case keyed => exact hOk.committed.keyed
  case once =>
    intro r
    obtain ⟨hCursor, hReceived⟩ := hOk.readers r
    rw [hReceived, List.map_take, hOk.committed.numbered, List.take_range'_of_length_ge hCursor]
  case received =>
    intro r e
    rw [(hOk.readers r).2]
    exact hOk.committed.mem_take ..
  case settled =>
    intro es t hRun r e he hGroup hSequence
    have hLater := reachable_ok hLawful (h.run hRun)
    have hFollows := (hOk.readers r).grow hOk.committed hLater.committed (run_grows hRun _)
    rw [hFollows.2]
    exact (hLater.committed.mem_take ..).mpr ⟨he, hGroup, hSequence⟩
  case answers =>
    intro r limit hLow hHigh
    obtain ⟨⟨rows, next⟩, hRead⟩ := hLawful.answers s.committed (s.readers r).group (s.readers r).cursor limit
      ((hOk.readers r).1.trans (hOk.committed.bounded _)) hLow hHigh
    exact ⟨_, .read hRead⟩
  case advances =>
    intro r limit t hStep hBehind
    cases hStep with
    | read hRead =>
      obtain ⟨n, hSome, hPage⟩ := hLawful.reads _ _ _ _ _ hRead
      rw [hOk.committed.page_eq _ (hOk.readers r).1] at hPage
      obtain ⟨-, rfl⟩ := Prod.mk.inj hPage
      simp only [Function.update_self, Reader.advance]
      omega

end SequencedFeed
