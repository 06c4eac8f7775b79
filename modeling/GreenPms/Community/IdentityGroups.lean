import Mathlib.Data.List.Nodup
import GreenPms.Community.Identities

/-! # What a group of registrations keeps apart

Every guest who is placed joins one group that admits him, or opens one under a key of his own. The
clauses of `Grouped` hold after each placement, and so of whatever lists of registrations there are.
-/

namespace GreenPms

open JsString

/-- The guests of a group have one document, one guest for each order, and matching names. -/
structure Group.Separated (group : Group) : Prop where
  documents : ∀ a ∈ group.members, ∀ b ∈ group.members, a.document ≠ [] → b.document ≠ [] → a.document = b.document
  orders : ∀ a ∈ group.members, ∀ b ∈ group.members, a.id ≠ b.id → a.orderId = b.orderId →
    a.document ≠ [] ∧ a.document = b.document
  matched : ∀ a ∈ group.members, ∀ b ∈ group.members, a.id ≠ b.id → a.document = [] → b.document = [] → 0 < score a b

structure Person.Fits (value member : Person) : Prop where
  document : value.document ≠ [] → member.document ≠ [] → member.document = value.document
  order : member.orderId = value.orderId → member.document ≠ [] ∧ member.document = value.document
  matched : value.document = [] → member.document = [] → 0 < score member value

theorem Group.Separated.add {group : Group} {value : Person} (h : group.Separated)
    (hFits : ∀ member ∈ group.members, value.Fits member) :
    Group.Separated { group with members := group.members ++ [value] } := by
  have hSplit : ∀ a ∈ group.members ++ [value], a ∈ group.members ∨ a = value := by
    intro a ha
    exact (List.mem_append.mp ha).imp_right List.mem_singleton.mp
  refine ⟨fun a ha b hb hA hB => ?_, fun a ha b hb hIds hOrder => ?_, fun a ha b hb hIds hA hB => ?_⟩
  · obtain hOldA | rfl := hSplit a ha <;> obtain hOldB | rfl := hSplit b hb
    · exact h.documents a hOldA b hOldB hA hB
    · exact (hFits a hOldA).document hB hA
    · exact ((hFits b hOldB).document hA hB).symm
    · rfl
  · obtain hOldA | rfl := hSplit a ha <;> obtain hOldB | rfl := hSplit b hb
    · exact h.orders a hOldA b hOldB hIds hOrder
    · exact (hFits a hOldA).order hOrder
    · obtain ⟨hStated, hSame⟩ := (hFits b hOldB).order hOrder.symm
      exact ⟨hSame ▸ hStated, hSame.symm⟩
    · exact absurd rfl hIds
  · obtain hOldA | rfl := hSplit a ha <;> obtain hOldB | rfl := hSplit b hb
    · exact h.matched a hOldA b hOldB hIds hA hB
    · exact (hFits a hOldA).matched hB hA
    · rw [score_comm]
      exact (hFits b hOldB).matched hA hB
    · exact absurd rfl hIds

namespace Identities

structure Grouped (state : Identities) (placed : List Person) : Prop where
  keys : ∀ {i j : Nat} {g g' : Group}, state.groups[i]? = some g → state.groups[j]? = some g' → g.key = g'.key → i = j
  members : ∀ {i : Nat} {g : Group}, state.groups[i]? = some g → ∀ m ∈ g.members, m ∈ placed ∧ (m.document = [] → m.nick ≠ [] ∨ m.name ≠ [])
  separated : ∀ {i : Nat} {g : Group}, state.groups[i]? = some g → g.Separated
  documents : ∀ {d i}, state.documents d = some i → ∃ g : Group, state.groups[i]? = some g ∧ ∃ m ∈ g.members, m.document = d
  bound : ∀ {i : Nat} {g : Group}, state.groups[i]? = some g → ∀ m ∈ g.members, m.document ≠ [] → state.documents m.document = some i
  keyed : ∀ {i : Nat} {g : Group}, state.groups[i]? = some g →
    (∃ d, g.key = documentPrefix ++ d ∧ state.documents d ≠ none) ∨ ∃ m ∈ placed, g.key = nicknamePrefix ++ m.id
  results : ∀ {id k approximate}, state.result id = some ⟨some k, approximate⟩ →
    ∃ i : Nat, ∃ g : Group, state.groups[i]? = some g ∧ g.key = k ∧ ∃ m ∈ g.members, m.id = id

structure Binding (state : Identities) (value : Person) (documents : JsString → Option Nat) (index : Nat) : Prop where
  kept_documents : ∀ {d j}, state.documents d = some j → documents d = some j
  opened_documents : ∀ {d j}, documents d = some j →
    state.documents d = some j ∨ (d = value.document ∧ value.document ≠ [] ∧ j = index)
  own : value.document ≠ [] → documents value.document = some index

def OwnKey (state : Identities) (value : Person) (key : JsString) : Prop :=
  (key = documentPrefix ++ value.document ∧ value.document ≠ [] ∧ state.documents value.document = none) ∨
    key = nicknamePrefix ++ value.id

structure Placement (state : Identities) (value : Person) (groups : List Group) (documents : JsString → Option Nat)
    (index : Nat) : Prop extends Binding state value documents index where
  kept : ∀ {j : Nat} {g : Group}, state.groups[j]? = some g → groups[j]? = some g
  opened : ∀ {j : Nat} {g : Group}, groups[j]? = some g → state.groups[j]? = some g ∨
    (j = state.groups.length ∧ g.members = [] ∧ OwnKey state value g.key)
  admits : ∃ g : Group, groups[index]? = some g ∧ ∀ m ∈ g.members, value.Fits m

theorem prefixes_differ (s t : JsString) : documentPrefix ++ s ≠ nicknamePrefix ++ t := by
  intro h
  exact absurd (List.cons.inj h).1 (by decide)

section Push

variable {state : Identities} {index : Nat} {value : Person} {approximate : JsString → Bool}

theorem push_groups (j : Nat) : (state.push index value approximate).groups[j]? =
    (state.groups[j]?).map fun g => if index = j then { g with members := g.members ++ [value] } else g := by
  rw [push, List.getElem?_modify]
  rfl

theorem push_inv {j : Nat} {g' : Group} (h : (state.push index value approximate).groups[j]? = some g') :
    ∃ g : Group, state.groups[j]? = some g ∧ g'.key = g.key ∧
      ((j ≠ index ∧ g' = g) ∨ (j = index ∧ g' = { g with members := g.members ++ [value] })) := by
  rw [push_groups, Option.map_eq_some_iff] at h
  obtain ⟨g, hg, rfl⟩ := h
  refine ⟨g, hg, ?_, ?_⟩
  · split <;> rfl
  · split
    case isTrue hHere => exact .inr ⟨hHere.symm, rfl⟩
    case isFalse hOther => exact .inl ⟨Ne.symm hOther, rfl⟩

variable (state) in
theorem push_at {j : Nat} {g : Group} (h : state.groups[j]? = some g) :
    ∃ g' : Group, (state.push index value approximate).groups[j]? = some g' ∧ g'.key = g.key ∧ (∀ m ∈ g.members, m ∈ g'.members) ∧
      (j = index → value ∈ g'.members) := by
  rw [push_groups, h]
  refine ⟨_, rfl, ?_⟩
  split
  case isTrue hHere =>
    exact ⟨rfl, fun m hm => List.mem_append_left _ hm, fun _ => List.mem_append_right _ List.mem_cons_self⟩
  case isFalse hOther => exact ⟨rfl, fun m hm => hm, fun hSame => absurd hSame.symm hOther⟩

end Push

section Step

variable {state : Identities} {placed : List Person} {value : Person} {groups : List Group}
  {documents : JsString → Option Nat} {index : Nat} {approximate : JsString → Bool}

theorem Placement.members (hPlace : Placement state value groups documents index) {j : Nat} {g : Group}
    (h : ({ state with groups, documents }.push index value approximate).groups[j]? = some g) :
    ∀ m ∈ g.members, (∃ g₀ : Group, state.groups[j]? = some g₀ ∧ m ∈ g₀.members) ∨ (j = index ∧ m = value) := by
  obtain ⟨g₁, hAt, -, hMembers⟩ := push_inv h
  intro m hm
  have hOld : m ∈ g₁.members ∨ (j = index ∧ m = value) := by
    obtain ⟨-, rfl⟩ | ⟨rfl, rfl⟩ := hMembers
    · exact .inl hm
    · exact (List.mem_append.mp hm).imp_right fun hValue => ⟨rfl, List.mem_singleton.mp hValue⟩
  obtain hOld | hNew := hOld
  · obtain hState | ⟨-, hEmpty, -⟩ := hPlace.opened hAt
    · exact .inl ⟨g₁, hState, hOld⟩
    · rw [hEmpty] at hOld
      cases hOld
  · exact .inr hNew

theorem Grouped.fresh_key (h : Grouped state placed) (hFresh : ∀ m ∈ placed, m.id ≠ value.id) {i : Nat} {g g' : Group}
    (hOld : state.groups[i]? = some g) (hNew : OwnKey state value g'.key) : g.key ≠ g'.key := by
  intro hSame
  rw [← hSame, OwnKey] at hNew
  obtain ⟨d, hKey, hKnown⟩ | ⟨m, hm, hKey⟩ := h.keyed hOld
  · obtain ⟨hDocument, -, hUnknown⟩ | hNickname := hNew
    · rw [List.append_cancel_left (hKey.symm.trans hDocument)] at hKnown
      exact hKnown hUnknown
    · exact prefixes_differ _ _ (hKey.symm.trans hNickname)
  · obtain ⟨hDocument, -⟩ | hNickname := hNew
    · exact prefixes_differ _ _ (hDocument.symm.trans hKey)
    · exact hFresh m hm (List.append_cancel_left (hKey.symm.trans hNickname))

theorem Grouped.push (h : Grouped state placed) (hFresh : ∀ m ∈ placed, m.id ≠ value.id)
    (hPlace : Placement state value groups documents index) (hLabelled : value.document = [] → value.nick ≠ [] ∨ value.name ≠ []) :
    Grouped ({ state with groups, documents }.push index value approximate) (placed ++ [value]) where
  keys := by
    intro i j g g' hi hj hKeys
    obtain ⟨g₁, hAt, hKey, -⟩ := push_inv hi
    obtain ⟨g₂, hAt', hKey', -⟩ := push_inv hj
    rw [hKey, hKey'] at hKeys
    obtain hOld | ⟨hPlace₁, -, hNew⟩ := hPlace.opened hAt <;> obtain hOld' | ⟨hPlace₂, -, hNew'⟩ := hPlace.opened hAt'
    · exact h.keys hOld hOld' hKeys
    · exact absurd hKeys (h.fresh_key hFresh hOld hNew')
    · exact absurd hKeys.symm (h.fresh_key hFresh hOld' hNew)
    · exact hPlace₁.trans hPlace₂.symm
  members := by
    intro i g hi m hm
    obtain ⟨g₀, hOld, hMember⟩ | ⟨-, rfl⟩ := hPlace.members hi m hm
    · obtain ⟨hPlaced, hNamed⟩ := h.members hOld m hMember
      exact ⟨List.mem_append_left _ hPlaced, hNamed⟩
    · exact ⟨List.mem_append_right _ List.mem_cons_self, hLabelled⟩
  separated := by
    intro i g hi
    obtain ⟨g₁, hAt, -, hMembers⟩ := push_inv hi
    have hBefore : g₁.Separated := by
      obtain hOld | ⟨-, hEmpty, -⟩ := hPlace.opened hAt
      · exact h.separated hOld
      · refine ⟨?_, ?_, ?_⟩ <;> simp [hEmpty]
    obtain ⟨-, rfl⟩ | ⟨rfl, rfl⟩ := hMembers
    · exact hBefore
    · obtain ⟨g, hHere, hFits⟩ := hPlace.admits
      obtain rfl := Option.some.inj (hAt.symm.trans hHere)
      exact hBefore.add hFits
  documents := by
    intro d i hd
    obtain hOld | ⟨rfl, -, rfl⟩ := hPlace.opened_documents hd
    · obtain ⟨g, hAt, m, hm, hDocument⟩ := h.documents hOld
      obtain ⟨g', hAt', -, hMembers, -⟩ := push_at { state with groups, documents } (hPlace.kept hAt)
      exact ⟨g', hAt', m, hMembers m hm, hDocument⟩
    · obtain ⟨g, hAt, -⟩ := hPlace.admits
      obtain ⟨g', hAt', -, -, hValue⟩ := push_at { state with groups, documents } hAt
      exact ⟨g', hAt', value, hValue rfl, rfl⟩
  bound := by
    intro i g hi m hm hStated
    obtain ⟨g₀, hOld, hMember⟩ | ⟨rfl, rfl⟩ := hPlace.members hi m hm
    · exact hPlace.kept_documents (h.bound hOld m hMember hStated)
    · exact hPlace.own hStated
  keyed := by
    intro i g hi
    obtain ⟨g₁, hAt, hKey, -⟩ := push_inv hi
    rw [hKey]
    obtain hOld | ⟨-, -, ⟨hDocument, hStated, -⟩ | hNickname⟩ := hPlace.opened hAt
    · obtain ⟨d, hPrefix, hKnown⟩ | ⟨m, hm, hPrefix⟩ := h.keyed hOld
      · obtain ⟨j, hj⟩ := Option.ne_none_iff_exists'.mp hKnown
        exact .inl ⟨d, hPrefix, Option.ne_none_iff_exists'.mpr ⟨j, hPlace.kept_documents hj⟩⟩
      · exact .inr ⟨m, List.mem_append_left _ hm, hPrefix⟩
    · exact .inl ⟨_, hDocument, Option.ne_none_iff_exists'.mpr ⟨index, hPlace.own hStated⟩⟩
    · exact .inr ⟨value, List.mem_append_right _ List.mem_cons_self, hNickname⟩
  results := by
    intro id k approximate hResult
    rw [Identities.push] at hResult
    dsimp only at hResult
    by_cases hOwn : id = value.id
    · subst hOwn
      rw [Function.update_self, Option.some.injEq, CommunityIdentity.mk.injEq, Option.map_eq_some_iff] at hResult
      obtain ⟨⟨g, hAt, hKey⟩, -⟩ := hResult
      obtain ⟨g', hAt', hSame, -, hValue⟩ := push_at { state with groups, documents } hAt
      exact ⟨index, g', hAt', hSame.trans hKey, value, hValue rfl, rfl⟩
    · rw [Function.update_of_ne hOwn] at hResult
      obtain ⟨i, g, hAt, hKey, m, hm, hId⟩ := h.results hResult
      obtain ⟨g', hAt', hSame, hMembers, -⟩ := push_at { state with groups, documents } (hPlace.kept hAt)
      exact ⟨i, g', hAt', hSame.trans hKey, m, hMembers m hm, hId⟩

end Step

/-! ## Passes -/

def Located (state : Identities) (value : Person) : Prop :=
  ∃ i, ∃ g : Group, ∃ approximate, state.documents value.document = some i ∧ state.groups[i]? = some g ∧
    state.result value.id = some ⟨some g.key, approximate⟩

structure Advanced (state : Identities) (placed rows : List Person) (state' : Identities) : Prop where
  grouped : state'.Grouped (placed ++ rows)
  documents : ∀ {d i}, state.documents d = some i → state'.documents d = some i
  keys : ∀ {i : Nat} {g : Group}, state.groups[i]? = some g → ∃ g' : Group, state'.groups[i]? = some g' ∧ g'.key = g.key
  results : ∀ {id}, (∀ v ∈ rows, v.id ≠ id) → state'.result id = state.result id
  located : ∀ v ∈ rows, v.document ≠ [] → state'.Located v

namespace Advanced

variable {state state' state'' : Identities} {placed rows rows' : List Person}

theorem none (h : state.Grouped placed) : Advanced state placed [] state where
  grouped := by rwa [List.append_nil]
  documents hd := hd
  keys hg := ⟨_, hg, rfl⟩
  results _ := rfl
  located _ hv := (List.not_mem_nil hv).elim

theorem append (h : Advanced state placed rows state') (h' : Advanced state' (placed ++ rows) rows' state'')
    (hApart : ∀ v ∈ rows, ∀ w ∈ rows', w.id ≠ v.id) : Advanced state placed (rows ++ rows') state'' where
  grouped := by
    rw [← List.append_assoc]
    exact h'.grouped
  documents hd := h'.documents (h.documents hd)
  keys hg := by
    obtain ⟨g', hg', hKey⟩ := h.keys hg
    obtain ⟨g'', hg'', hKey'⟩ := h'.keys hg'
    exact ⟨g'', hg'', hKey'.trans hKey⟩
  results hOther := by
    rw [h'.results fun v hv => hOther v (List.mem_append_right _ hv),
      h.results fun v hv => hOther v (List.mem_append_left _ hv)]
  located v hv hDocument := by
    obtain hv | hv := List.mem_append.mp hv
    · obtain ⟨i, g, approximate, hKnown, hAt, hResult⟩ := h.located v hv hDocument
      obtain ⟨g', hAt', hKey⟩ := h'.keys hAt
      refine ⟨i, g', approximate, h'.documents hKnown, hAt', ?_⟩
      rw [h'.results (hApart v hv), hResult, hKey]
    · exact h'.located v hv hDocument

theorem foldl {place : Identities → Person → Identities} (Ready : List Person → Person → Prop)
    (hStep : ∀ {state placed value}, Grouped state placed → (∀ m ∈ placed, m.id ≠ value.id) → Ready placed value →
      Advanced state placed [value] (place state value))
    (hKeep : ∀ {placed v w}, Ready placed w → Ready placed v → Ready (placed ++ [v]) w)
    (h : state.Grouped placed) (hIds : (placed ++ rows).Pairwise fun a b => a.id ≠ b.id)
    (hReady : ∀ v ∈ rows, Ready placed v) : Advanced state placed rows (rows.foldl place state) := by
  induction rows generalizing state placed with
  | nil => exact none h
  | cons v rows ih =>
    obtain ⟨hv, hRows⟩ := List.forall_mem_cons.mp hReady
    obtain ⟨-, hRest, hApart⟩ := List.pairwise_append.mp hIds
    have hHere : Advanced state placed [v] (place state v) :=
      hStep h (fun m hm => hApart m hm v List.mem_cons_self) hv
    have hNext := ih hHere.grouped (by simpa using hIds) fun w hw => hKeep (hRows w hw) hv
    refine hHere.append hNext fun u hu w hw => ?_
    obtain rfl := List.mem_singleton.mp hu
    exact ((List.pairwise_cons.mp hRest).1 w hw).symm

end Advanced

section Place

variable {state : Identities} {placed : List Person} {value : Person}

theorem Placement.advanced {groups : List Group} {documents : JsString → Option Nat} {index : Nat}
    {approximate : JsString → Bool} (hPlace : Placement state value groups documents index) (h : state.Grouped placed)
    (hFresh : ∀ m ∈ placed, m.id ≠ value.id) (hLabelled : value.document = [] → value.nick ≠ [] ∨ value.name ≠ []) :
    Advanced state placed [value] ({ state with groups, documents }.push index value approximate) where
  grouped := h.push hFresh hPlace hLabelled
  documents := hPlace.kept_documents
  keys hg := by
    obtain ⟨g', hg', hKey, -⟩ := push_at { state with groups, documents } (hPlace.kept hg)
    exact ⟨g', hg', hKey⟩
  results hOther := by
    have hId : _ ≠ value.id := (hOther value List.mem_cons_self).symm
    exact Function.update_of_ne hId _ _
  located v hv hDocument := by
    obtain rfl := List.mem_singleton.mp hv
    obtain ⟨g, hAt, -⟩ := hPlace.admits
    obtain ⟨g', hAt', hKey, -⟩ := push_at { state with groups, documents } hAt
    refine ⟨index, g', approximate g.key, hPlace.own hDocument, hAt', ?_⟩
    rw [Identities.push]
    dsimp only
    rw [Function.update_self, hAt, hKey]
    rfl

theorem chooseGroup_spec (groups : List Group) (value : Person) (key : JsString) :
    (∃ index g, chooseGroup groups value key = (groups, index) ∧ groups[index]? = some g ∧ 0 < candidate g value) ∨
      chooseGroup groups value key = (groups ++ [⟨key, []⟩], groups.length) := by
  unfold chooseGroup
  split
  case h_1 index hBest =>
    obtain ⟨g, hAt, hScore⟩ := bestGroup_spec hBest
    exact .inl ⟨index, g, rfl, hAt, hScore⟩
  case h_2 => exact .inr rfl

theorem kept_of_append {groups : List Group} {key : JsString} {j : Nat} {g : Group} (h : groups[j]? = some g) :
    (groups ++ [⟨key, []⟩])[j]? = some g := by
  rw [List.getElem?_append_left (List.getElem?_eq_some_iff.mp h).1, h]

theorem opened_of_append {groups : List Group} {key : JsString} {j : Nat} {g : Group}
    (h : (groups ++ [⟨key, []⟩])[j]? = some g) : groups[j]? = some g ∨ (j = groups.length ∧ g = ⟨key, []⟩) := by
  obtain hOld | hNew := Nat.lt_or_ge j groups.length
  · rw [List.getElem?_append_left hOld] at h
    exact .inl h
  · rw [List.getElem?_append_right hNew, List.getElem?_singleton] at h
    split at h
    case isTrue hHere => exact .inr ⟨by omega, (Option.some.inj h).symm⟩
    case isFalse => cases h

theorem Binding.same {index : Nat} (hOwn : value.document ≠ [] → state.documents value.document = some index) :
    Binding state value state.documents index where
  kept_documents hd := hd
  opened_documents hd := .inl hd
  own := hOwn

theorem Binding.new {index : Nat} (hStated : value.document ≠ []) (hUnknown : state.documents value.document = none) :
    Binding state value (Function.update state.documents value.document (some index)) index where
  kept_documents hd := by
    rw [Function.update_of_ne ?_, hd]
    rintro rfl
    rw [hUnknown] at hd
    cases hd
  opened_documents {d j} hd := by
    by_cases hSame : d = value.document
    · subst hSame
      rw [Function.update_self] at hd
      exact .inr ⟨rfl, hStated, (Option.some.inj hd).symm⟩
    · rw [Function.update_of_ne hSame] at hd
      exact .inl hd
  own _ := Function.update_self _ _ _

theorem Binding.existing {documents : JsString → Option Nat} {index : Nat} {g : Group}
    (h : Binding state value documents index) (hAt : state.groups[index]? = some g) (hFits : ∀ m ∈ g.members, value.Fits m) :
    Placement state value state.groups documents index where
  toBinding := h
  kept hg := hg
  opened hg := .inl hg
  admits := ⟨g, hAt, hFits⟩

theorem Binding.opening {documents : JsString → Option Nat} {key : JsString}
    (h : Binding state value documents state.groups.length) (hKey : OwnKey state value key) :
    Placement state value (state.groups ++ [⟨key, []⟩]) documents state.groups.length where
  toBinding := h
  kept hg := kept_of_append hg
  opened hg := by
    refine (opened_of_append hg).imp_right ?_
    rintro ⟨rfl, rfl⟩
    exact ⟨rfl, rfl, hKey⟩
  admits := ⟨⟨key, []⟩, List.getElem?_concat_length, fun m hm => (List.not_mem_nil hm).elim⟩

theorem unnamed_advanced (h : state.Grouped placed) (hNamed : value.document = []) : Advanced state placed [value]
    { state with result := Function.update state.result value.id (some ⟨Option.none, false⟩) } where
  grouped := {
    keys := h.keys
    members := fun hi m hm => ⟨List.mem_append_left _ (h.members hi m hm).1, (h.members hi m hm).2⟩
    separated := h.separated
    documents := h.documents
    bound := h.bound
    keyed := fun hi => (h.keyed hi).imp_right fun ⟨m, hm, hKey⟩ => ⟨m, List.mem_append_left _ hm, hKey⟩
    results := by
      intro id k approximate hResult
      dsimp only at hResult
      by_cases hOwn : id = value.id
      · subst hOwn
        rw [Function.update_self] at hResult
        cases hResult
      · rw [Function.update_of_ne hOwn] at hResult
        exact h.results hResult }
  documents hd := hd
  keys hg := ⟨_, hg, rfl⟩
  results hOther := Function.update_of_ne (hOther value List.mem_cons_self).symm _ _
  located v hv hDocument := by
    obtain rfl := List.mem_singleton.mp hv
    exact absurd hNamed hDocument

theorem placeNamed_advanced (h : state.Grouped placed) (hFresh : ∀ m ∈ placed, m.id ≠ value.id)
    (hNamed : value.document = []) : Advanced state placed [value] (placeNamed state value) := by
  have hBinding (index : Nat) : Binding state value state.documents index := .same fun hStated => absurd hNamed hStated
  unfold placeNamed
  split
  case isTrue => exact unnamed_advanced h hNamed
  case isFalse hNames =>
    have hLabelled : value.document = [] → value.nick ≠ [] ∨ value.name ≠ [] := fun _ => not_and_or.mp hNames
    obtain ⟨index, g, hChosen, hAt, hScore⟩ | hOpened := chooseGroup_spec state.groups value (nicknamePrefix ++ value.id)
    · rw [hChosen]
      obtain ⟨hOrders, hScores⟩ := candidate_named hNamed hScore
      refine ((hBinding index).existing hAt fun m hm => ?_).advanced h hFresh hLabelled
      obtain ⟨hPlaced, hLabels⟩ := h.members hAt m hm
      exact ⟨fun hStated => absurd hNamed hStated, fun hOrder => absurd (hOrders m hm hOrder) (hFresh m hPlaced),
        fun _ hMember => hScores m hm (hLabels hMember)⟩
    · rw [hOpened]
      exact ((hBinding _).opening (.inr rfl)).advanced h hFresh hLabelled

theorem placeDocumented_advanced (h : state.Grouped placed) (hFresh : ∀ m ∈ placed, m.id ≠ value.id)
    (hDocument : value.document ≠ []) (hOrders : ∀ m ∈ placed, m.document = [] → m.orderId ≠ value.orderId) :
    Advanced state placed [value] (placeDocumented state value) := by
  have hLabelled : value.document = [] → value.nick ≠ [] ∨ value.name ≠ [] := fun hNamed => absurd hNamed hDocument
  unfold placeDocumented
  split
  case h_1 index hKnown =>
    obtain ⟨g, hAt, m₀, hMember, hSame⟩ := h.documents hKnown
    refine ((Binding.same fun _ => hKnown).existing hAt fun m hm => ?_).advanced h hFresh hLabelled
    have hEqual : m.document ≠ [] → m.document = value.document := fun hStated =>
      ((h.separated hAt).documents m hm m₀ hMember hStated (hSame ▸ hDocument)).trans hSame
    refine ⟨fun _ => hEqual, fun hOrder => ?_, fun hNamed => absurd hNamed hDocument⟩
    have hStated : m.document ≠ [] := fun hNamed => hOrders m (h.members hAt m hm).1 hNamed hOrder
    exact ⟨hStated, hEqual hStated⟩
  case h_2 hUnknown =>
    obtain ⟨index, g, hChosen, hAt, hScore⟩ | hOpened :=
      chooseGroup_spec state.groups value (documentPrefix ++ value.document)
    · rw [hChosen]
      have hNew : ∀ m ∈ g.members, m.document ≠ value.document := by
        intro m hm hSame
        have hBound := h.bound hAt m hm (hSame ▸ hDocument)
        rw [hSame, hUnknown] at hBound
        cases hBound
      obtain ⟨hOthers, hNamed⟩ := candidate_documented hDocument hNew hScore
      refine ((Binding.new hDocument hUnknown).existing hAt fun m hm => ?_).advanced h hFresh hLabelled
      exact ⟨fun _ hStated => absurd (hNamed m hm) hStated,
        fun hOrder => absurd (hOthers m hm hOrder) (hFresh m (h.members hAt m hm).1),
        fun hNone => absurd hNone hDocument⟩
    · rw [hOpened]
      exact ((Binding.new hDocument hUnknown).opening (.inl ⟨rfl, hDocument, hUnknown⟩)).advanced h hFresh hLabelled

end Place

section Resolve

variable {tables : CharacterTables}

theorem process_advanced {state : Identities} {placed : List Person} (values : List CommunityIdentityInput)
    (h : state.Grouped placed) (hIds : (placed ++ values.map (person tables)).Pairwise fun a b => a.id ≠ b.id)
    (hOrders : ∀ m ∈ placed, m.document = [] → ∀ v ∈ values, m.orderId ≠ v.orderId) :
    ∃ rows, rows.Perm (values.map (person tables)) ∧ Advanced state placed rows (process tables state values) := by
  unfold process
  generalize hRows : (values.map (person tables)).mergeSort _ = rows
  have hPerm : rows.Perm (values.map (person tables)) := hRows ▸ List.mergeSort_perm _ _
  have hSplit : (rows.filter (fun row => row.document ≠ []) ++ rows.filter fun row => row.document = []).Perm rows := by
    simpa using List.filter_append_perm (fun row : Person => decide (row.document ≠ [])) rows
  have hApart : (placed ++ (rows.filter (fun row => row.document ≠ []) ++ rows.filter fun row => row.document = [])).Pairwise
      fun a b => a.id ≠ b.id :=
    (List.Perm.pairwise_iff (fun hOther => Ne.symm hOther) ((hSplit.trans hPerm).append_left placed)).mpr hIds
  refine ⟨_, hSplit.trans hPerm, ?_⟩
  have hDocumented : Advanced state placed (rows.filter fun row => row.document ≠ [])
      ((rows.filter fun row => row.document ≠ []).foldl placeDocumented state) := by
    refine Advanced.foldl (fun placed v => v.document ≠ [] ∧
      ∀ m ∈ placed, m.document = [] → m.orderId ≠ v.orderId) ?_ ?_ h ?_ ?_
    · intro state placed value h hFresh hReady
      exact placeDocumented_advanced h hFresh hReady.1 hReady.2
    · rintro placed v w hw hv
      refine ⟨hw.1, fun m hm hNamed => ?_⟩
      obtain hOld | hNew := List.mem_append.mp hm
      · exact hw.2 m hOld hNamed
      · rw [List.mem_singleton.mp hNew] at hNamed
        exact absurd hNamed hv.1
    · rw [← List.append_assoc] at hApart
      exact (List.pairwise_append.mp hApart).1
    · intro v hv
      obtain ⟨hMember, hStated⟩ := List.mem_filter.mp hv
      obtain ⟨input, hInput, rfl⟩ := List.mem_map.mp (hPerm.mem_iff.mp hMember)
      exact ⟨of_decide_eq_true hStated, fun m hm hNamed => hOrders m hm hNamed input hInput⟩
  refine hDocumented.append ?_ ?_
  · refine Advanced.foldl (fun _ v => v.document = []) ?_ ?_ hDocumented.grouped ?_ ?_
    · intro state placed value h hFresh hNamed
      exact placeNamed_advanced h hFresh hNamed
    · exact fun hw _ => hw
    · rwa [List.append_assoc]
    · exact fun v hv => of_decide_eq_true (List.mem_filter.mp hv).2
  · intro v hv w hw
    exact ((List.pairwise_append.mp (List.pairwise_append.mp hApart).2.1).2.2 v hv w hw).symm

theorem empty_grouped : empty.Grouped [] where
  keys h := by cases h
  members h := by cases h
  separated h := by cases h
  documents h := by cases h
  bound h := by cases h
  keyed h := by cases h
  results h := by cases h

def personKey (tables : CharacterTables) (actual planned : List CommunityIdentityInput) (value : CommunityIdentityInput) :
    Option JsString :=
  (resolveCommunityIdentities tables actual planned value.id).bind CommunityIdentity.personKey

structure MayShare (tables : CharacterTables) (a b : CommunityIdentityInput) : Prop where
  documents : (person tables a).document ≠ [] → (person tables b).document ≠ [] →
    (person tables a).document = (person tables b).document
  orders : a.id ≠ b.id → a.orderId = b.orderId →
    (person tables a).document ≠ [] ∧ (person tables a).document = (person tables b).document
  matched : a.id ≠ b.id → (person tables a).document = [] → (person tables b).document = [] →
    0 < score (person tables a) (person tables b)

section Final

variable {actual planned : List CommunityIdentityInput} (hIds : ((actual ++ planned).map CommunityIdentityInput.id).Nodup)
  (hOrders : ∀ a ∈ actual, ∀ b ∈ planned, a.orderId ≠ b.orderId)

include hIds

theorem persons_apart (tables : CharacterTables) :
    (actual.map (person tables) ++ planned.map (person tables)).Pairwise fun a b => a.id ≠ b.id := by
  rw [← List.map_append, List.pairwise_map]
  exact List.pairwise_map.mp hIds

include hOrders

theorem passes (tables : CharacterTables) : ∃ rows rows', rows.Perm (actual.map (person tables)) ∧
    rows'.Perm (planned.map (person tables)) ∧ Advanced empty [] rows (process tables empty actual) ∧
    Advanced (process tables empty actual) rows rows' (process tables (process tables empty actual) planned) := by
  have hApart := persons_apart hIds tables
  obtain ⟨rows, hRows, hActual⟩ := process_advanced actual empty_grouped
    (List.pairwise_append.mp hApart).1 fun m hm => (List.not_mem_nil hm).elim
  have hGrouped : (process tables empty actual).Grouped rows := hActual.grouped
  obtain ⟨rows', hRows', hPlanned⟩ := process_advanced planned hGrouped
    ((List.Perm.pairwise_iff (fun hOther => Ne.symm hOther) (hRows.append_right _)).mpr hApart) (by
      intro m hm _ v hv
      obtain ⟨a, ha, rfl⟩ := List.mem_map.mp (hRows.mem_iff.mp hm)
      exact hOrders a ha v hv)
  exact ⟨rows, rows', hRows, hRows', hActual, hPlanned⟩

theorem mayShare_of_key (tables : CharacterTables) {a b : CommunityIdentityInput} (ha : a ∈ actual ++ planned)
    (hb : b ∈ actual ++ planned) {k : JsString} (hA : personKey tables actual planned a = some k)
    (hB : personKey tables actual planned b = some k) : MayShare tables a b := by
  obtain ⟨rows, rows', hRows, hRows', -, hPlanned⟩ := passes hIds hOrders tables
  have hGrouped := hPlanned.grouped
  have hMembers {c : CommunityIdentityInput} (hc : c ∈ actual ++ planned) (hKey : personKey tables actual planned c = some k) :
      ∃ i : Nat, ∃ g : Group, (process tables (process tables empty actual) planned).groups[i]? = some g ∧ g.key = k ∧
        person tables c ∈ g.members := by
    obtain ⟨⟨_, approximate⟩, hResult, rfl⟩ := Option.bind_eq_some_iff.mp hKey
    obtain ⟨i, g, hAt, hSame, m, hm, hId⟩ := hGrouped.results hResult
    refine ⟨i, g, hAt, hSame, ?_⟩
    have hPlaced := (hRows.append hRows').mem_iff.mp (hGrouped.members hAt m hm).1
    rw [← List.map_append, List.mem_map] at hPlaced
    obtain ⟨c', hc', rfl⟩ := hPlaced
    rwa [← List.inj_on_of_nodup_map hIds hc' hc hId]
  obtain ⟨i, g, hAt, hSame, hMemberA⟩ := hMembers ha hA
  obtain ⟨j, g', hAt', hSame', hMemberB⟩ := hMembers hb hB
  obtain rfl := hGrouped.keys hAt hAt' (hSame.trans hSame'.symm)
  obtain rfl := Option.some.inj (hAt.symm.trans hAt')
  have hSeparated := hGrouped.separated hAt
  exact ⟨hSeparated.documents _ hMemberA _ hMemberB, hSeparated.orders _ hMemberA _ hMemberB,
    hSeparated.matched _ hMemberA _ hMemberB⟩

theorem actual_kept (tables : CharacterTables) {a : CommunityIdentityInput} (ha : a ∈ actual) :
    resolveCommunityIdentities tables actual planned a.id = (process tables empty actual).result a.id := by
  obtain ⟨rows, rows', -, hRows', -, hPlanned⟩ := passes hIds hOrders tables
  refine hPlanned.results fun v hv => ?_
  obtain ⟨b, hb, rfl⟩ := List.mem_map.mp (hRows'.mem_iff.mp hv)
  rw [List.map_append] at hIds
  exact fun hSame => (List.nodup_append.mp hIds).2.2 _ (List.mem_map_of_mem ha) _ (List.mem_map_of_mem hb) hSame.symm

theorem documents_share (tables : CharacterTables) {a b : CommunityIdentityInput} (ha : a ∈ actual) (hb : b ∈ actual)
    (hStated : (person tables a).document ≠ []) (hSame : (person tables a).document = (person tables b).document) :
    ∃ k, personKey tables actual planned a = some k ∧ personKey tables actual planned b = some k := by
  obtain ⟨rows, rows', hRows, -, hActual, -⟩ := passes hIds hOrders tables
  have hLocated {c : CommunityIdentityInput} (hc : c ∈ actual) (hStated : (person tables c).document ≠ []) :
      (process tables empty actual).Located (person tables c) :=
    hActual.located _ (hRows.mem_iff.mpr (List.mem_map_of_mem hc)) hStated
  obtain ⟨i, g, approximate, hKnown, hAt, hResult⟩ := hLocated ha hStated
  obtain ⟨j, g', approximate', hKnown', hAt', hResult'⟩ := hLocated hb (hSame ▸ hStated)
  rw [← hSame] at hKnown'
  obtain rfl := Option.some.inj (hKnown.symm.trans hKnown')
  obtain rfl := Option.some.inj (hAt.symm.trans hAt')
  refine ⟨g.key, ?_, ?_⟩
  · rw [personKey, actual_kept hIds hOrders tables ha]
    exact Option.bind_eq_some_iff.mpr ⟨_, hResult, rfl⟩
  · rw [personKey, actual_kept hIds hOrders tables hb]
    exact Option.bind_eq_some_iff.mpr ⟨_, hResult', rfl⟩

end Final

/-- Registrations that must be kept apart never share a key, and those of one document do. -/
theorem identities_keep_apart (tables : CharacterTables) (actual planned : List CommunityIdentityInput)
    (hIds : ((actual ++ planned).map CommunityIdentityInput.id).Nodup)
    (hOrders : ∀ a ∈ actual, ∀ b ∈ planned, a.orderId ≠ b.orderId) :
    (∀ a ∈ actual ++ planned, ∀ b ∈ actual ++ planned, ∀ k, personKey tables actual planned a = some k →
      personKey tables actual planned b = some k → MayShare tables a b) ∧
    (∀ a ∈ actual, ∀ b ∈ actual, (person tables a).document ≠ [] →
      (person tables a).document = (person tables b).document →
      ∃ k, personKey tables actual planned a = some k ∧ personKey tables actual planned b = some k) ∧
    ∀ a ∈ actual, personKey tables actual planned a = personKey tables actual [] a := by
  refine ⟨fun a ha b hb k => mayShare_of_key hIds hOrders tables ha hb,
    fun a ha b hb => documents_share hIds hOrders tables ha hb, fun a ha => ?_⟩
  have hIdsActual : ((actual ++ []).map CommunityIdentityInput.id).Nodup := by
    rw [List.append_nil]
    rw [List.map_append] at hIds
    exact (List.nodup_append.mp hIds).1
  rw [personKey, personKey, actual_kept hIds hOrders tables ha,
    actual_kept hIdsActual (fun _ _ _ hb => (List.not_mem_nil hb).elim) tables ha]

def sampleTables : CharacterTables where
  normalizeNFKC := id
  toLocaleLowerCase := id
  toUpperCase := id
  trim := id
  isMark _ := false
  localeCompare := List.compareLex compare

def sampleRegistration (id orderId : UInt16) (nickname documentNumber : Option JsString) : CommunityIdentityInput where
  id := [id]
  orderId := [orderId]
  nickname
  fullName := none
  documentNumber

def sampleActual : List CommunityIdentityInput :=
  [sampleRegistration 49 65 (some (units "lily")) none, sampleRegistration 50 65 (some (units "lily")) (some (units "X1")),
    sampleRegistration 51 66 none (some (units "X1"))]

def samplePlanned : List CommunityIdentityInput :=
  [sampleRegistration 52 67 (some (units "lily")) (some (units "Y2"))]

theorem identities_keep_apart_sample :
    (∃ k, personKey sampleTables sampleActual samplePlanned sampleActual[1] = some k ∧
      personKey sampleTables sampleActual samplePlanned sampleActual[2] = some k) ∧
    personKey sampleTables sampleActual samplePlanned sampleActual[0] =
      personKey sampleTables sampleActual [] sampleActual[0] := by
  obtain ⟨-, hShared, hKept⟩ := identities_keep_apart sampleTables sampleActual samplePlanned (by decide) (by decide)
  exact ⟨hShared _ (List.getElem_mem _) _ (List.getElem_mem _) (by decide) (by decide), hKept _ (List.getElem_mem _)⟩

end Resolve

end Identities

end GreenPms
