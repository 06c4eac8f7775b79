import Mathlib.Logic.Function.Basic
import GreenPms.Community.Matching

/-! # Identities of guests

Registrations are grouped under the keys of presumed persons: first by document, then by nickname
and name. The actual stays come first, and a planned guest may join one of their groups.
-/

namespace GreenPms

open JsString

structure CharacterTables where
  normalizeNFKC : JsString → JsString
  toLocaleLowerCase : JsString → JsString
  toUpperCase : JsString → JsString
  trim : JsString → JsString
  /-- Punctuation, separators, symbols and white space. -/
  isMark : JsString → Bool
  localeCompare : JsString → JsString → Ordering

structure CommunityIdentityInput where
  id : JsString
  orderId : JsString
  nickname : Option JsString
  fullName : Option JsString
  documentNumber : Option JsString
  deriving DecidableEq, Repr

structure CommunityIdentity where
  personKey : Option JsString
  approximate : Bool
  deriving DecidableEq, Repr

structure Person extends CommunityIdentityInput where
  nick : JsString
  name : JsString
  document : JsString
  deriving DecidableEq, Repr

structure Group where
  key : JsString
  members : List Person
  deriving DecidableEq, Repr

section Labels

variable (tables : CharacterTables)

def placeholders : List JsString :=
  ["无", "未知", "不详", "未填", "未填写", "客人", "住客", "测试", "unknown", "null", "none"].map units

/-- Nothing but decimal digits, and at least one. -/
def allDigits (text : JsString) : Bool := text ≠ [] && text.all fun u => 48 ≤ u && u ≤ 57

def label (value : Option JsString) : JsString :=
  let normalized := ((characters (tables.toLocaleLowerCase (tables.normalizeNFKC (value.getD [])))).filter
    fun c => !tables.isMark c).flatten
  if normalized ∈ placeholders ∨ allDigits normalized = true then [] else normalized

def person (value : CommunityIdentityInput) : Person where
  toCommunityIdentityInput := value
  nick := label tables value.nickname
  name := label tables value.fullName
  document := tables.toUpperCase (tables.trim (value.documentNumber.getD []))

end Labels

/-- A name of at least two characters that is not just the nickname. -/
def Person.properName (p : Person) : JsString := if p.name ≠ p.nick ∧ 2 ≤ (characters p.name).length then p.name else []

def Person.shownLabel (p : Person) : JsString := if p.nick ≠ [] then p.nick else p.name

def score (a b : Person) : Nat :=
  if a.document ≠ [] ∧ b.document ≠ [] then if a.document = b.document then 1000 else 0
  -- Separate roommates must not collapse just because a nickname was copied.
  else if a.orderId = b.orderId ∧ a.id ≠ b.id then 0
  else if a.properName ≠ [] ∧ b.properName ≠ [] ∧ close a.properName b.properName 4 = false then 0
  else if a.shownLabel ≠ [] ∧ a.shownLabel = b.shownLabel then if a.name ≠ [] ∧ a.name = b.name then 120 else 100
  else if a.nick ≠ [] ∧ b.nick ≠ [] ∧ close a.nick b.nick (if a.name ≠ [] ∧ a.name = b.name then 2 else 3) = true then
    if a.name ≠ [] ∧ a.name = b.name then 95 else 80
  else if a.name ≠ [] ∧ a.name = b.name then 70
  else 0

theorem stated_eq_comm {s t : JsString} : (s ≠ [] ∧ s = t) ↔ (t ≠ [] ∧ t = s) := by
  constructor
  · rintro ⟨hStated, rfl⟩
    exact ⟨hStated, rfl⟩
  · rintro ⟨hStated, rfl⟩
    exact ⟨hStated, rfl⟩

theorem score_comm (a b : Person) : score a b = score b a := by
  have hSame : (a.name ≠ [] ∧ a.name = b.name) ↔ (b.name ≠ [] ∧ b.name = a.name) := stated_eq_comm
  have hMinimum : (if a.name ≠ [] ∧ a.name = b.name then 2 else 3) = if b.name ≠ [] ∧ b.name = a.name then 2 else 3 :=
    if_congr hSame rfl rfl
  unfold score
  refine if_congr and_comm (if_congr eq_comm rfl rfl) (if_congr (and_congr eq_comm ne_comm) rfl (if_congr ?_ rfl ?_))
  · rw [close_comm]
    tauto
  · refine if_congr stated_eq_comm (if_congr hSame rfl rfl) (if_congr ?_ (if_congr hSame rfl rfl) (if_congr hSame rfl rfl))
    rw [close_comm, hMinimum]
    tauto

def candidate (group : Group) (value : Person) : Nat :=
  if value.document ≠ [] ∧ (group.members.any fun member => member.document = value.document) = true then 1000
  else if value.document ≠ [] ∧
      (group.members.any fun member => member.document ≠ [] ∧ member.document ≠ value.document) = true then 0
  else if (group.members.any fun member => member.orderId = value.orderId ∧ member.id ≠ value.id) = true then 0
  else
    let scores := (group.members.filter fun member => member.nick ≠ [] ∨ member.name ≠ []).map fun member =>
      score member value
    -- Fuzzy chains A~B~C do not merge A and C when they do not match each other.
    if scores ≠ [] ∧ (scores.all fun result => 0 < result) = true then scores.foldl max 0 else 0

theorem other_orders {members : List Person} {value : Person}
    (h : ¬(members.any fun member => member.orderId = value.orderId ∧ member.id ≠ value.id) = true) :
    ∀ member ∈ members, member.orderId = value.orderId → member.id = value.id := by
  intro member hMember hOrder
  by_contra hOther
  exact h (List.any_eq_true.mpr ⟨member, hMember, decide_eq_true ⟨hOrder, hOther⟩⟩)

/-- A guest without a document joins only groups of other orders, and matches each of their members. -/
theorem candidate_named {group : Group} {value : Person} (hNamed : value.document = []) (h : 0 < candidate group value) :
    (∀ member ∈ group.members, member.orderId = value.orderId → member.id = value.id) ∧
      ∀ member ∈ group.members, (member.nick ≠ [] ∨ member.name ≠ []) → 0 < score member value := by
  unfold candidate at h
  rw [if_neg (fun hBoth => hBoth.1 hNamed), if_neg (fun hBoth => hBoth.1 hNamed)] at h
  split at h
  case isTrue => exact absurd h (Nat.lt_irrefl 0)
  case isFalse hOrders =>
    refine ⟨other_orders hOrders, fun member hMember hLabelled => ?_⟩
    dsimp only at h
    split at h
    case isTrue hScores =>
      have hScore := List.all_eq_true.mp hScores.2 (score member value)
        (List.mem_map_of_mem (List.mem_filter.mpr ⟨hMember, decide_eq_true hLabelled⟩))
      exact of_decide_eq_true hScore
    case isFalse => exact absurd h (Nat.lt_irrefl 0)

/-- A new document joins only a group of other orders in which no guest has a document. -/
theorem candidate_documented {group : Group} {value : Person} (hDocument : value.document ≠ [])
    (hNew : ∀ member ∈ group.members, member.document ≠ value.document) (h : 0 < candidate group value) :
    (∀ member ∈ group.members, member.orderId = value.orderId → member.id = value.id) ∧
      ∀ member ∈ group.members, member.document = [] := by
  have hNone : ¬(value.document ≠ [] ∧ (group.members.any fun member => member.document = value.document) = true) := by
    rintro ⟨-, hAny⟩
    obtain ⟨member, hMember, hSame⟩ := List.any_eq_true.mp hAny
    exact hNew member hMember (of_decide_eq_true hSame)
  unfold candidate at h
  rw [if_neg hNone] at h
  split at h
  case isTrue => exact absurd h (Nat.lt_irrefl 0)
  case isFalse hOthers =>
    split at h
    case isTrue => exact absurd h (Nat.lt_irrefl 0)
    case isFalse hOrders =>
      refine ⟨other_orders hOrders, fun member hMember => ?_⟩
      by_contra hStated
      exact hOthers ⟨hDocument, List.any_eq_true.mpr
        ⟨member, hMember, decide_eq_true ⟨hStated, hNew member hMember⟩⟩⟩

/-- The one group that fits best, by its place. A tie leaves the guest a group of his own. -/
def bestGroup (groups : List Group) (value : Person) : Option Nat :=
  let ranked := ((groups.zipIdx.map fun (group, index) => (index, candidate group value)).filter fun item =>
    0 < item.2).mergeSort fun a b => b.2 ≤ a.2
  match ranked with
  | [] => none
  | first :: rest => if ((rest.head?.map Prod.snd).getD 0) < first.2 then some first.1 else none

theorem bestGroup_spec {groups : List Group} {value : Person} {index : Nat} (h : bestGroup groups value = some index) :
    ∃ group, groups[index]? = some group ∧ 0 < candidate group value := by
  unfold bestGroup at h
  dsimp only at h
  split at h
  case h_1 => cases h
  case h_2 first rest hRanked =>
    split at h
    case isTrue =>
      obtain rfl := Option.some.inj h
      have hFirst : first ∈ first :: rest := List.mem_cons_self
      rw [← hRanked, List.mem_mergeSort, List.mem_filter, List.mem_map] at hFirst
      obtain ⟨⟨⟨group, i⟩, hMem, rfl⟩, hScore⟩ := hFirst
      exact ⟨group, List.mem_zipIdx_iff_getElem?.mp hMem, of_decide_eq_true hScore⟩
    case isFalse => cases h

/-- What the passes have built so far. A document points to the place of its group. -/
structure Identities where
  result : JsString → Option CommunityIdentity
  groups : List Group
  documents : JsString → Option Nat

namespace Identities

def empty : Identities := ⟨fun _ => none, [], fun _ => none⟩

def documentPrefix : JsString := units "document:"

def nicknamePrefix : JsString := units "nickname-name:"

/-- `group.members.push` and `result.set`. -/
def push (state : Identities) (index : Nat) (value : Person) (approximate : JsString → Bool) : Identities :=
  let key := (state.groups[index]?).map Group.key
  { state with
    groups := state.groups.modify index fun group => { group with members := group.members ++ [value] }
    result := Function.update state.result value.id (some ⟨key, key.any approximate⟩) }

def chooseGroup (groups : List Group) (value : Person) (key : JsString) : List Group × Nat :=
  match bestGroup groups value with
  | some index => (groups, index)
  | none => (groups ++ [⟨key, []⟩], groups.length)

def inexact (key : JsString) : Bool := !documentPrefix.isPrefixOf key

def placeDocumented (state : Identities) (value : Person) : Identities :=
  match state.documents value.document with
  | some index => state.push index value inexact
  | none =>
      -- A planned documented guest may link to an earlier nickname-only stay.
      let (groups, index) := chooseGroup state.groups value (documentPrefix ++ value.document)
      { state with groups, documents := Function.update state.documents value.document (some index) }.push
        index value inexact

def placeNamed (state : Identities) (value : Person) : Identities :=
  if value.nick = [] ∧ value.name = [] then
    { state with result := Function.update state.result value.id (some ⟨none, false⟩) }
  else
    let (groups, index) := chooseGroup state.groups value (nicknamePrefix ++ value.id)
    { state with groups }.push index value fun _ => true

section Resolve

variable (tables : CharacterTables)

def compareRows (a b : Person) : Ordering :=
  (compare (decide (b.document ≠ [])) (decide (a.document ≠ []))).then
    ((compare (decide (b.nick ≠ [] ∧ b.name ≠ [])) (decide (a.nick ≠ [] ∧ a.name ≠ []))).then
      (tables.localeCompare a.id b.id))

def process (state : Identities) (values : List CommunityIdentityInput) : Identities :=
  let rows := (values.map (person tables)).mergeSort fun a b => (compareRows tables a b).isLE
  (rows.filter fun row => row.document = []).foldl placeNamed
    ((rows.filter fun row => row.document ≠ []).foldl placeDocumented state)

/-- Planned registrations may attach to an existing person, but never join two actual groups. -/
def resolveCommunityIdentities (actual planned : List CommunityIdentityInput) : JsString → Option CommunityIdentity :=
  (process tables (process tables empty actual) planned).result

end Resolve

end Identities

end GreenPms
