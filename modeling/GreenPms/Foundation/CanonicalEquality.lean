import GreenPms.Foundation.JsonTree
import GreenPms.Library.Checked
import GreenPms.Library.Indexes

/-! # Canonical texts are equal for equal values only

A canonical text is the text of a tree: the value with its defined members in the order of their
keys. Two values have one tree if they are equal up to that order.
-/

namespace GreenPms

open JsString Delimited

theorem StrictTotal.mono {compare : Collation} {keys fewer : List JsString} (h : StrictTotal compare keys)
    (hSub : ∀ key ∈ fewer, key ∈ keys) : StrictTotal compare fewer where
  eq a ha b hb := h.eq a (hSub a ha) b (hSub b hb)
  swap a ha b hb := h.swap a (hSub a ha) b (hSub b hb)
  trans a ha b hb c hc := h.trans a (hSub a ha) b (hSub b hb) c (hSub c hc)

namespace JsValue

theorem defined_cons_none (key : JsString) (rest : Members) : defined ((key, none) :: rest) = defined rest := rfl

theorem defined_cons_some (key : JsString) (value : JsValue) (rest : Members) :
    defined ((key, some value) :: rest) = (key, value) :: defined rest := rfl

/-- The members are met one by one, with a case for a value and one for `undefined`. -/
theorem members_induct {motive : Members → Prop} (nil : motive []) (none : ∀ key rest, motive rest → motive ((key, none) :: rest))
    (some : ∀ key value rest, motive rest → motive ((key, some value) :: rest)) (members : Members) : motive members := by
  induction members with
  | nil => exact nil
  | cons member rest ih =>
    obtain ⟨key, value⟩ := member
    cases value with
    | none => exact none key rest ih
    | some value => exact some key value rest ih

theorem mem_defined {members : Members} {m : JsString × JsValue} : m ∈ defined members ↔ (m.1, some m.2) ∈ members := by
  induction members using members_induct with
  | nil => simp [defined]
  | none key rest ih => simp [defined_cons_none, ih]
  | some key value rest ih =>
    simp only [defined_cons_some, List.mem_cons, ih, Option.some_inj, Prod.ext_iff]

theorem induct {motive : JsValue → Prop} (null : motive .null) (bool : ∀ value, motive (.bool value))
    (num : ∀ value, motive (.num value)) (str : ∀ value, motive (.str value))
    (arr : ∀ items, (∀ v ∈ items, motive v) → motive (.arr items))
    (obj : ∀ members, (∀ m ∈ defined members, motive m.2) → motive (.obj members)) (v : JsValue) : motive v :=
  @JsValue.rec motive (fun items => ∀ v ∈ items, motive v) (fun members => ∀ m ∈ defined members, motive m.2)
    (fun m => ∀ value, m.2 = some value → motive value) (fun o => ∀ value, o = some value → motive value)
    null bool num str arr obj (by simp) (fun _ _ hHead hTail => List.forall_mem_cons.mpr ⟨hHead, hTail⟩) (by simp [defined])
    (fun m rest hHead hTail => by
      obtain ⟨key, value⟩ := m
      cases value with
      | none => exact hTail
      | some value => exact List.forall_mem_cons.mpr ⟨hHead value rfl, hTail⟩)
    (fun _ _ h => h) (by simp) (fun _ h value hSome => Option.some.inj hSome ▸ h) v

/-! ## Lists of items and of members -/

section
variable (localeCompare : Collation)

theorem itemTexts_eq (items : List JsValue) : itemTexts localeCompare items = items.map (stableJson localeCompare) := by
  induction items with
  | nil => rfl
  | cons item rest ih => rw [itemTexts, ih, List.map_cons]

theorem definedTexts_eq (members : Members) :
    definedTexts localeCompare members = (defined members).map fun m => (m.1, stableJson localeCompare m.2) := by
  induction members using members_induct with
  | nil => rfl
  | none key rest ih => rw [definedTexts, ih, defined_cons_none]
  | some key value rest ih => rw [definedTexts, ih, defined_cons_some, List.map_cons]

end

theorem keyedItems_iff {items : List JsValue} : KeyedItems items ↔ ∀ v ∈ items, Keyed v := by
  induction items with
  | nil => simp [KeyedItems]
  | cons item rest ih => rw [KeyedItems, ih, List.forall_mem_cons]

theorem keyedMembers_iff {members : Members} : KeyedMembers members ↔ ∀ m ∈ defined members, Keyed m.2 := by
  induction members using members_induct with
  | nil => simp [KeyedMembers, defined]
  | none key rest ih => rw [KeyedMembers, ih, defined_cons_none]
  | some key value rest ih => rw [KeyedMembers, ih, defined_cons_some, List.forall_mem_cons]

theorem defined_keys_nodup {members : Members} (h : (members.map Prod.fst).Nodup) : ((defined members).map Prod.fst).Nodup := by
  have hSub : ((defined members).map Prod.fst).Sublist (members.map Prod.fst) := by
    induction members using members_induct with
    | nil => exact List.Sublist.refl []
    | none key rest ih =>
      rw [defined_cons_none, List.map_cons]
      exact (ih (List.nodup_cons.mp h).2).cons key
    | some key value rest ih =>
      rw [defined_cons_some, List.map_cons, List.map_cons]
      exact (ih (List.nodup_cons.mp h).2).cons_cons key
  exact h.sublist hSub

theorem mem_itemKeys {items : List JsValue} {v : JsValue} (h : v ∈ items) {key : JsString} (hKey : key ∈ keys v) :
    key ∈ itemKeys items := by
  induction items with
  | nil => cases h
  | cons item rest ih =>
    rw [itemKeys, List.mem_append]
    rcases List.mem_cons.mp h with rfl | hRest
    · exact .inl hKey
    · exact .inr (ih hRest)

theorem mem_memberKeys {members : Members} {m : JsString × JsValue} (h : m ∈ defined members) {key : JsString}
    (hKey : key = m.1 ∨ key ∈ keys m.2) : key ∈ memberKeys members := by
  induction members using members_induct with
  | nil => cases h
  | none _ rest ih => exact ih h
  | some _ value rest ih =>
    rw [memberKeys, List.cons_append, List.mem_cons, List.mem_append]
    rcases List.mem_cons.mp h with rfl | hRest
    · exact hKey.imp_right .inl
    · exact .inr (.inr (ih hRest))

theorem sameMembers_iff {members : Members} {others : List (JsString × JsValue)} :
    SameMembers members others ↔ ∀ m ∈ defined members, ∃ other, others.lookup m.1 = some other ∧ Same m.2 other := by
  induction members using members_induct with
  | nil => simp [SameMembers, defined]
  | none key rest ih => rw [SameMembers, ih, defined_cons_none]
  | some key value rest ih => rw [SameMembers, ih, defined_cons_some, List.forall_mem_cons]

/-! ## The tree of a value -/

mutual
def canonical (localeCompare : Collation) : JsValue → JsonTree
  | .null => .null
  | .bool value => .bool value
  | .num value => .num value
  | .str value => .str value
  | .arr items => .arr (canonicalItems localeCompare items)
  | .obj members => .obj (sortByKey localeCompare (canonicalMembers localeCompare members))
def canonicalItems (localeCompare : Collation) : List JsValue → List JsonTree
  | [] => []
  | item :: rest => canonical localeCompare item :: canonicalItems localeCompare rest
def canonicalMembers (localeCompare : Collation) : Members → List (JsString × JsonTree)
  | [] => []
  | (_, none) :: rest => canonicalMembers localeCompare rest
  | (key, some entry) :: rest => (key, canonical localeCompare entry) :: canonicalMembers localeCompare rest
end

section
variable (localeCompare : Collation)

theorem canonicalItems_eq (items : List JsValue) : canonicalItems localeCompare items = items.map (canonical localeCompare) := by
  induction items with
  | nil => rfl
  | cons item rest ih => rw [canonicalItems, ih, List.map_cons]

theorem canonicalMembers_eq (members : Members) :
    canonicalMembers localeCompare members = (defined members).map fun m => (m.1, canonical localeCompare m.2) := by
  induction members using members_induct with
  | nil => rfl
  | none key rest ih => rw [canonicalMembers, ih, defined_cons_none]
  | some key value rest ih => rw [canonicalMembers, ih, defined_cons_some, List.map_cons]

theorem sorted_perm {α : Type} (entries : List (JsString × α)) : (sortByKey localeCompare entries).Perm entries :=
  List.mergeSort_perm entries _

theorem sortByKey_map {α β : Type} (f : α → β) (entries : List (JsString × α)) :
    sortByKey localeCompare (entries.map fun m => (m.1, f m.2)) = (sortByKey localeCompare entries).map fun m => (m.1, f m.2) := by
  rw [sortByKey, sortByKey]
  refine (List.map_mergeSort ?_).symm
  exact fun _ _ _ _ => rfl

theorem stableJson_eq_text (v : JsValue) : stableJson localeCompare v = (canonical localeCompare v).text := by
  induction v using induct with
  | null => rfl
  | bool value => rfl
  | num value => rfl
  | str value => rfl
  | arr items ih =>
    rw [stableJson, canonical, JsonTree.text, JsonTree.texts_eq, itemTexts_eq, canonicalItems_eq, List.map_map]
    congr 3
    exact List.map_congr_left ih
  | obj members ih =>
    have hTexts : definedTexts localeCompare members =
        (canonicalMembers localeCompare members).map fun m => (m.1, m.2.text) := by
      rw [definedTexts_eq, canonicalMembers_eq, List.map_map]
      refine List.map_congr_left fun m hm => ?_
      rw [ih m hm]
      rfl
    rw [stableJson, canonical, JsonTree.text, JsonTree.memberTexts_eq, hTexts, sortByKey_map, List.map_map]
    rfl

end

/-! ## Values with one tree -/

theorem lookup_eq_some {α : Type} {entries : List (JsString × α)} (hKeys : (entries.map Prod.fst).Nodup) {key : JsString} {a : α} :
    entries.lookup key = some a ↔ (key, a) ∈ entries := by
  constructor
  · intro h
    obtain ⟨before, after, rfl, -⟩ := List.lookup_eq_some_iff.mp h
    exact List.mem_append_right before List.mem_cons_self
  · intro h
    obtain ⟨before, after, rfl⟩ := List.append_of_mem h
    refine List.lookup_eq_some_iff.mpr ⟨before, after, rfl, fun m hm => bne_iff_ne.mpr fun hSame => ?_⟩
    rw [List.map_append, List.map_cons, List.nodup_append] at hKeys
    exact hKeys.2.2 m.1 (List.mem_map_of_mem hm) key List.mem_cons_self hSame.symm

theorem sortByKey_perm {localeCompare : Collation} {α : Type} {xs ys : List (JsString × α)}
    (hKeys : (xs.map Prod.fst).Nodup) (hOrder : StrictTotal localeCompare (xs.map Prod.fst)) (h : xs.Perm ys) :
    sortByKey localeCompare xs = sortByKey localeCompare ys := by
  have hKey {m : JsString × α} (hm : m ∈ xs) : m.1 ∈ xs.map Prod.fst := List.mem_map_of_mem hm
  refine Indexes.mergeSort_perm ?_ ?_ ?_ h
  · intro a ha b hb
    rw [hOrder.swap a.1 (hKey ha) b.1 (hKey hb)]
    cases localeCompare a.1 b.1 <;> rfl
  · intro a ha b hb c hc hab hbc
    cases hFirst : localeCompare a.1 b.1 with
    | lt =>
      cases hSecond : localeCompare b.1 c.1 with
      | lt => rw [hOrder.trans a.1 (hKey ha) b.1 (hKey hb) c.1 (hKey hc) hFirst hSecond]; rfl
      | eq => rw [← (hOrder.eq b.1 (hKey hb) c.1 (hKey hc)).mp hSecond, hFirst]; rfl
      | gt => rw [hSecond] at hbc; cases hbc
    | eq => rwa [(hOrder.eq a.1 (hKey ha) b.1 (hKey hb)).mp hFirst]
    | gt => rw [hFirst] at hab; cases hab
  · intro a ha b hb hab hba
    have hSame : a.1 = b.1 := by
      refine (hOrder.eq a.1 (hKey ha) b.1 (hKey hb)).mp ?_
      rw [hOrder.swap a.1 (hKey ha) b.1 (hKey hb)] at hba
      revert hab hba
      cases localeCompare a.1 b.1 <;> decide
    exact List.inj_on_of_nodup_map hKeys ha hb hSame

theorem sorted_eq_iff {localeCompare : Collation} {xs ys : List (JsString × JsValue)} (hxs : (xs.map Prod.fst).Nodup)
    (hys : (ys.map Prod.fst).Nodup) (hOrder : StrictTotal localeCompare (xs.map Prod.fst)) {f : JsValue → JsonTree}
    {r : JsValue → JsValue → Prop} (h : ∀ m ∈ xs, ∀ m' ∈ ys, f m.2 = f m'.2 ↔ r m.2 m'.2) :
    sortByKey localeCompare (xs.map fun m => (m.1, f m.2)) = sortByKey localeCompare (ys.map fun m => (m.1, f m.2)) ↔
      (∀ m ∈ xs, ∃ other, ys.lookup m.1 = some other ∧ r m.2 other) ∧ ∀ key ∈ ys.map Prod.fst, key ∈ xs.map Prod.fst := by
  have hKeys (zs : List (JsString × JsValue)) : (zs.map fun m => (m.1, f m.2)).map Prod.fst = zs.map Prod.fst := by
    rw [List.map_map]
    rfl
  constructor
  · intro hSorted
    have hPerm : (xs.map fun m => (m.1, f m.2)).Perm (ys.map fun m => (m.1, f m.2)) :=
      (sorted_perm localeCompare _).symm.trans (hSorted ▸ sorted_perm localeCompare _)
    constructor
    · intro m hm
      obtain ⟨m', hm', hSame⟩ := List.mem_map.mp (hPerm.mem_iff.mp (List.mem_map_of_mem hm))
      obtain ⟨hKey, hValue⟩ := Prod.mk.inj hSame
      refine ⟨m'.2, (lookup_eq_some hys).mpr ?_, (h m hm m' hm').mp hValue.symm⟩
      rw [← hKey]
      exact hm'
    · intro key hKey
      have hBoth := (hPerm.map Prod.fst).mem_iff (a := key)
      rw [hKeys, hKeys] at hBoth
      exact hBoth.mpr hKey
  · rintro ⟨hMembers, hCover⟩
    refine sortByKey_perm (by rwa [hKeys]) (by rwa [hKeys]) ?_
    have hNodup {zs : List (JsString × JsValue)} (hzs : (zs.map Prod.fst).Nodup) : (zs.map fun m => (m.1, f m.2)).Nodup := by
      refine List.Nodup.of_map Prod.fst ?_
      rwa [hKeys]
    refine (List.perm_ext_iff_of_nodup (hNodup hxs) (hNodup hys)).mpr fun entry => ?_
    constructor
    · intro hEntry
      obtain ⟨m, hm, rfl⟩ := List.mem_map.mp hEntry
      obtain ⟨other, hLookup, hSame⟩ := hMembers m hm
      have hOther := (lookup_eq_some hys).mp hLookup
      refine List.mem_map.mpr ⟨_, hOther, ?_⟩
      rw [(h m hm _ hOther).mpr hSame]
    · intro hEntry
      obtain ⟨m', hm', rfl⟩ := List.mem_map.mp hEntry
      obtain ⟨m, hm, hKey⟩ := List.mem_map.mp (hCover m'.1 (List.mem_map_of_mem hm'))
      obtain ⟨other, hLookup, hSame⟩ := hMembers m hm
      rw [hKey, (lookup_eq_some hys).mpr hm', Option.some_inj] at hLookup
      refine List.mem_map.mpr ⟨m, hm, ?_⟩
      rw [hKey, (h m hm m' hm').mpr (hLookup ▸ hSame)]

theorem sameItems_iff {f : JsValue → JsonTree} {items others : List JsValue}
    (h : ∀ v ∈ items, ∀ w ∈ others, f v = f w ↔ Same v w) : items.map f = others.map f ↔ SameItems items others := by
  induction items generalizing others with
  | nil => cases others <;> simp [SameItems]
  | cons v rest ih =>
    cases others with
    | nil => simp [SameItems]
    | cons w others =>
      rw [List.map_cons, List.map_cons, List.cons.injEq, SameItems, h v List.mem_cons_self w List.mem_cons_self,
        ih fun v hv w hw => h v (List.mem_cons_of_mem _ hv) w (List.mem_cons_of_mem _ hw)]

/-- Values have one tree if and only if they are equal up to the order of keys. -/
theorem canonical_eq_iff {localeCompare : Collation} {v w : JsValue} (hv : Keyed v) (hw : Keyed w)
    (hOrder : StrictTotal localeCompare (keys v)) : canonical localeCompare v = canonical localeCompare w ↔ Same v w := by
  induction v using induct generalizing w with
  | null => cases w <;> simp [canonical, Same]
  | bool value => cases w <;> simp [canonical, Same]
  | num value => cases w <;> simp [canonical, Same]
  | str value => cases w <;> simp [canonical, Same]
  | arr items ih =>
    cases w with
    | arr others =>
      rw [Keyed, keyedItems_iff] at hv hw
      rw [canonical, canonical, JsonTree.arr.injEq, canonicalItems_eq, canonicalItems_eq, Same]
      refine sameItems_iff fun v hMem w hMem' => ih v hMem (hv v hMem) (hw w hMem') (hOrder.mono ?_)
      exact fun key hKey => mem_itemKeys hMem hKey
    | _ => simp [canonical, Same]
  | obj members ih =>
    cases w with
    | obj others =>
      rw [Keyed, keyedMembers_iff] at hv hw
      rw [canonical, canonical, JsonTree.obj.injEq, canonicalMembers_eq, canonicalMembers_eq, Same, sameMembers_iff]
      refine sorted_eq_iff (defined_keys_nodup hv.1) (defined_keys_nodup hw.1) (hOrder.mono fun key hKey => ?_) ?_
      · obtain ⟨m, hm, rfl⟩ := List.mem_map.mp hKey
        exact mem_memberKeys hm (.inl rfl)
      · intro m hm m' hm'
        refine ih m hm (hv.2 m hm) (hw.2 m' hm') (hOrder.mono ?_)
        exact fun key hKey => mem_memberKeys hm (.inr hKey)
    | _ => simp [canonical, Same]

theorem stableJson_eq_iff {localeCompare : Collation} {v w : JsValue} (hv : Keyed v) (hw : Keyed w)
    (hOrder : StrictTotal localeCompare (keys v)) : stableJson localeCompare v = stableJson localeCompare w ↔ Same v w := by
  rw [stableJson_eq_text, stableJson_eq_text, JsonTree.text_injective.eq_iff, canonical_eq_iff hv hw hOrder]

end JsValue

end GreenPms
