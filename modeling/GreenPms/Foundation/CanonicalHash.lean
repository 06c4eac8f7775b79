import GreenPms.Foundation.CanonicalEquality

/-! # Hashes of canonical texts

A projection that is accepted has the stable text of its value in the order of units. Canonical
texts are well formed, so that a digest without collisions on such texts tells values apart.
-/

namespace GreenPms

open JsString Delimited Checked

/-! ## The order of units -/

theorem compareUnits_total (keys : List JsString) : StrictTotal JsValue.compareUnits keys where
  eq _ _ _ _ := Std.LawfulEqCmp.compare_eq_iff_eq
  swap _ _ _ _ := Std.OrientedCmp.eq_swap
  trans _ _ _ _ _ _ := Std.TransCmp.lt_trans

namespace JsValue

theorem Same.symm {v w : JsValue} (h : Same v w) (hv : Keyed v) (hw : Keyed w) : Same w v :=
  (canonical_eq_iff hw hv (compareUnits_total _)).mp ((canonical_eq_iff hv hw (compareUnits_total _)).mpr h).symm

/-! ## Accepted projections -/

theorem projectionItems_eq (items : List JsValue) : projectionItems items = items.map canonicalProjectionJson := by
  induction items with
  | nil => rfl
  | cons item rest ih => rw [projectionItems, ih, List.map_cons]

theorem projectionString_eq_ok {s text : JsString} (h : projectionString s = .ok text) : text = quoteString s := by
  unfold projectionString at h
  split at h
  · cases h
  · exact (Except.ok.inj h).symm

theorem projectionMembers_ok {members : Members} (h : ∀ m ∈ projectionMembers members, ∃ text, m.2 = .ok text)
    (hStable : ∀ m ∈ defined members, ∀ text, canonicalProjectionJson m.2 = .ok text → text = stableJson compareUnits m.2) :
    projectionMembers members = (definedTexts compareUnits members).map fun m => (m.1, .ok m.2) := by
  induction members using members_induct with
  | nil => rfl
  | none key rest ih =>
    obtain ⟨text, hText⟩ := h _ List.mem_cons_self
    cases hText
  | some key value rest ih =>
    rw [projectionMembers] at h
    obtain ⟨hHead, hTail⟩ := List.forall_mem_cons.mp h
    rw [defined_cons_some] at hStable
    obtain ⟨hFirst, hRest⟩ := List.forall_mem_cons.mp hStable
    obtain ⟨text, hText : canonicalProjectionJson value = .ok text⟩ := hHead
    rw [projectionMembers, definedTexts, List.map_cons, ih hTail hRest, hText, hFirst text hText]

theorem projectionMember_ok {m : JsString × JsString} {text : JsString}
    (h : projectionMember (m.1, .ok m.2) = .ok text) : text = memberText m := by
  rw [projectionMember, bind_eq_ok] at h
  obtain ⟨key, hKey, hRest⟩ := h
  rw [projectionString_eq_ok hKey] at hRest
  exact (Except.ok.inj hRest).symm

theorem accepted_of_member {m : JsString × Except String JsString} {text : JsString} (h : projectionMember m = .ok text) :
    ∃ value, m.2 = .ok value := by
  rw [projectionMember, bind_eq_ok] at h
  obtain ⟨_, -, hRest⟩ := h
  obtain ⟨value, hValue, -⟩ := bind_eq_ok.mp hRest
  exact ⟨value, hValue⟩

theorem forall₂_eq_map {α β : Type} {r : α → β → Prop} {f : α → β} {xs : List α} {ys : List β}
    (h : List.Forall₂ r xs ys) (hEach : ∀ x ∈ xs, ∀ y, r x y → y = f x) : ys = xs.map f := by
  induction h with
  | nil => rfl
  | cons hHead _ ih =>
    obtain ⟨hFirst, hRest⟩ := List.forall_mem_cons.mp hEach
    rw [List.map_cons, ← ih hRest, ← hFirst _ hHead]

theorem canonicalProjectionJson_stable {v : JsValue} {text : JsString} (h : canonicalProjectionJson v = .ok text) :
    text = stableJson compareUnits v := by
  induction v using induct generalizing text with
  | null => exact (Except.ok.inj h).symm
  | bool value => exact (Except.ok.inj h).symm
  | num value => cases h
  | str value => exact projectionString_eq_ok h
  | arr items ih =>
    rw [canonicalProjectionJson, bind_eq_ok] at h
    obtain ⟨texts, hTexts, hText⟩ := h
    rw [projectionItems_eq, mapM_eq_ok, List.forall₂_map_left_iff] at hTexts
    have hStable := forall₂_eq_map hTexts fun item hMem text hAccepted => ih item hMem hAccepted
    rw [← pure_eq_ok.mp hText, stableJson, itemTexts_eq, hStable]
  | obj members ih =>
    rw [canonicalProjectionJson, bind_eq_ok] at h
    obtain ⟨texts, hTexts, hText⟩ := h
    have hAccepted : ∀ m ∈ projectionMembers members, ∃ text, m.2 = .ok text := by
      intro m hm
      obtain ⟨text, -, hMember⟩ := mapM_eq_ok_mem hTexts ((sorted_perm compareUnits _).mem_iff.mpr hm)
      exact accepted_of_member hMember
    rw [projectionMembers_ok hAccepted fun m hm text => ih m hm, sortByKey_map, mapM_eq_ok,
      List.forall₂_map_left_iff] at hTexts
    have hStable := forall₂_eq_map hTexts fun m _ text => projectionMember_ok
    rw [← pure_eq_ok.mp hText, stableJson, hStable]

/-! ## Which values are accepted -/

def Accepted (v : JsValue) : Prop := ∃ text, canonicalProjectionJson v = .ok text

theorem accepted_arr {items : List JsValue} : Accepted (.arr items) ↔ ∀ item ∈ items, Accepted item := by
  have hText : Accepted (.arr items) ↔ ∃ texts, (projectionItems items).mapM id = .ok texts := by
    simp only [Accepted, canonicalProjectionJson, bind_eq_ok, pure_eq_ok]
    constructor
    · rintro ⟨_, texts, hTexts, -⟩
      exact ⟨texts, hTexts⟩
    · rintro ⟨texts, hTexts⟩
      exact ⟨_, texts, hTexts, rfl⟩
  rw [hText, mapM_ok_iff, projectionItems_eq, List.forall_mem_map]
  rfl

theorem projectionMembers_eq (members : Members) : projectionMembers members = members.map fun m =>
    (m.1, (m.2.map canonicalProjectionJson).getD (.error "INVALID_PROJECTION_VALUE")) := by
  induction members using members_induct with
  | nil => rfl
  | none key rest ih | some key value rest ih => rw [projectionMembers, ih, List.map_cons]; rfl

theorem accepted_obj {members : Members} : Accepted (.obj members) ↔
    ∀ m ∈ members, (∃ key, projectionString m.1 = .ok key) ∧ ∃ value, m.2 = some value ∧ Accepted value := by
  have hText : Accepted (.obj members) ↔
      ∃ texts, (sortByKey compareUnits (projectionMembers members)).mapM projectionMember = .ok texts := by
    simp only [Accepted, canonicalProjectionJson, bind_eq_ok, pure_eq_ok]
    constructor
    · rintro ⟨_, texts, hTexts, -⟩
      exact ⟨texts, hTexts⟩
    · rintro ⟨texts, hTexts⟩
      exact ⟨_, texts, hTexts, rfl⟩
  have hSorted : (∀ m ∈ sortByKey compareUnits (projectionMembers members), ∃ text, projectionMember m = .ok text) ↔
      ∀ m ∈ projectionMembers members, ∃ text, projectionMember m = .ok text :=
    forall_congr' fun m => by rw [(sorted_perm compareUnits _).mem_iff]
  rw [hText, mapM_ok_iff, hSorted, projectionMembers_eq, List.forall_mem_map]
  refine forall₂_congr fun m _ => ?_
  simp only [projectionMember, bind_eq_ok, pure_eq_ok]
  constructor
  · rintro ⟨_, key, hKey, text, hMember, -⟩
    refine ⟨⟨key, hKey⟩, ?_⟩
    cases hValue : m.2 with
    | none =>
      rw [hValue] at hMember
      cases hMember
    | some value =>
      rw [hValue] at hMember
      exact ⟨value, rfl, text, hMember⟩
  · rintro ⟨⟨key, hKey⟩, value, hValue, text, hMember⟩
    rw [hValue]
    exact ⟨_, key, hKey, text, hMember, rfl⟩

theorem allDefinedItems_iff {items : List JsValue} : AllDefinedItems items ↔ ∀ v ∈ items, AllDefined v := by
  induction items with
  | nil => simp [AllDefinedItems]
  | cons item rest ih => rw [AllDefinedItems, ih, List.forall_mem_cons]

theorem allDefinedMembers_iff {members : Members} :
    AllDefinedMembers members ↔ ∀ m ∈ members, ∃ value, m.2 = some value ∧ AllDefined value := by
  induction members using members_induct with
  | nil => simp [AllDefinedMembers]
  | none key rest ih => simp [AllDefinedMembers]
  | some key value rest ih => simp [AllDefinedMembers, ih]

theorem sameItems_accepted {items others : List JsValue} (h : SameItems items others)
    (hEach : ∀ v ∈ items, ∀ w ∈ others, Same v w → Accepted w) : ∀ w ∈ others, Accepted w := by
  induction items generalizing others with
  | nil =>
    cases others with
    | nil => exact fun w hw => absurd hw List.not_mem_nil
    | cons w others => exact absurd h id
  | cons v items ih =>
    cases others with
    | nil => exact absurd h id
    | cons w others =>
      refine List.forall_mem_cons.mpr ⟨hEach v List.mem_cons_self w List.mem_cons_self h.1, ih h.2 ?_⟩
      exact fun a ha b hb => hEach a (List.mem_cons_of_mem v ha) b (List.mem_cons_of_mem w hb)

/-- Whether a value without `undefined` members is accepted is no matter of the order of its keys. -/
theorem Same.accepted {v w : JsValue} (h : Same v w) (hKeyed : Keyed w) (hDefined : AllDefined w) (hv : Accepted v) :
    Accepted w := by
  induction v using JsValue.induct generalizing w with
  | null | bool value | num value | str value =>
    cases w <;> first
      | exact absurd h id
      | (cases h; exact hv)
  | arr items ih =>
    cases w with
    | arr others =>
      rw [Keyed, keyedItems_iff] at hKeyed
      rw [AllDefined, allDefinedItems_iff] at hDefined
      rw [accepted_arr] at hv ⊢
      exact sameItems_accepted h fun item hItem other hOther hSame =>
        ih item hItem hSame (hKeyed other hOther) (hDefined other hOther) (hv item hItem)
    | _ => exact absurd h id
  | obj members ih =>
    cases w with
    | obj others =>
      rw [Keyed, keyedMembers_iff] at hKeyed
      rw [AllDefined, allDefinedMembers_iff] at hDefined
      rw [Same, sameMembers_iff] at h
      rw [accepted_obj] at hv ⊢
      rintro ⟨key, entry⟩ hm
      obtain ⟨value, rfl : entry = some value, hValue⟩ := hDefined _ hm
      have hOther : (key, value) ∈ defined others := mem_defined.mpr hm
      obtain ⟨m, hMember, rfl : m.1 = key⟩ := List.mem_map.mp (h.2 key (List.mem_map_of_mem hOther))
      obtain ⟨other, hLookup, hSame⟩ := h.1 m hMember
      rw [(lookup_eq_some (defined_keys_nodup hKeyed.1)).mpr hOther, Option.some_inj] at hLookup
      subst hLookup
      obtain ⟨hKey, _, hEq, hAccepted⟩ := hv _ (mem_defined.mp hMember)
      obtain rfl := Option.some.inj hEq
      exact ⟨hKey, value, rfl, ih m hMember hSame (hKeyed.2 _ hOther) hValue hAccepted⟩
    | _ => exact absurd h id

/-! ## Well-formed texts -/

end JsValue

/-- A text without lone surrogates, which every encoding of it keeps apart from other texts. -/
inductive JsString.WellFormed : JsString → Prop where
  | nil : WellFormed []
  | unit {u : UInt16} {rest : JsString} (high : highSurrogate u = false) (low : lowSurrogate u = false)
      (h : WellFormed rest) : WellFormed (u :: rest)
  | pair {u v : UInt16} {rest : JsString} (high : highSurrogate u = true) (low : lowSurrogate v = true)
      (h : WellFormed rest) : WellFormed (u :: v :: rest)

namespace JsString.WellFormed

theorem append {s t : JsString} (hs : WellFormed s) (ht : WellFormed t) : WellFormed (s ++ t) := by
  induction hs with
  | nil => exact ht
  | unit hHigh hLow _ ih => exact .unit hHigh hLow ih
  | pair hHigh hLow _ ih => exact .pair hHigh hLow ih

theorem of_units {s : JsString} (h : ∀ u ∈ s, u < 0xD800) : WellFormed s := by
  induction s with
  | nil => exact .nil
  | cons u rest ih =>
    obtain ⟨hHead, hTail⟩ := List.forall_mem_cons.mp h
    have hHigh : highSurrogate u = false := by
      rw [highSurrogate, decide_eq_false (UInt16.not_le.mpr hHead), Bool.false_and]
    have hLow : lowSurrogate u = false := by
      rw [lowSurrogate, decide_eq_false (UInt16.not_le.mpr (UInt16.lt_trans hHead (by decide))), Bool.false_and]
    exact .unit hHigh hLow (ih hTail)

theorem flatMap {α : Type} {f : α → JsString} {xs : List α} (h : ∀ x ∈ xs, WellFormed (f x)) : WellFormed (xs.flatMap f) := by
  induction xs with
  | nil => exact .nil
  | cons x xs ih =>
    obtain ⟨hHead, hTail⟩ := List.forall_mem_cons.mp h
    exact hHead.append (ih hTail)

theorem joined {comma : UInt16} (hComma : comma < 0xD800) {texts : List JsString} (h : ∀ t ∈ texts, WellFormed t) :
    WellFormed (Delimited.joined comma texts) := by
  cases texts with
  | nil => exact .nil
  | cons text texts =>
    rw [joined_cons]
    obtain ⟨hHead, hTail⟩ := List.forall_mem_cons.mp h
    refine hHead.append (flatMap fun t ht => ?_)
    exact (of_units (s := [comma]) (by simpa using hComma)).append (hTail t ht)

theorem bracketed {first comma last : UInt16} (hFirst : first < 0xD800) (hComma : comma < 0xD800) (hLast : last < 0xD800)
    {texts : List JsString} (h : ∀ t ∈ texts, WellFormed t) : WellFormed (first :: (Delimited.joined comma texts ++ [last])) := by
  refine (of_units (s := [first]) (by simpa using hFirst)).append ((joined hComma h).append ?_)
  exact of_units (by simpa using hLast)

theorem numeric {u : UInt16} (h : Decimal.numeric u = true) : u < 0xD800 := by
  unfold Decimal.numeric at h
  simp only [Bool.or_eq_true, Bool.and_eq_true, decide_eq_true_eq] at h
  obtain (((⟨-, h⟩ | rfl) | rfl) | rfl) | rfl := h
  · exact UInt16.lt_of_le_of_lt h (by decide)
  · decide
  · decide
  · decide
  · decide

theorem hexUnit_lt {n : Nat} (h : n < 16) : hexUnit n < 0xD800 := by
  have hAll : ∀ d : Fin 16, hexUnit d < 0xD800 := by decide
  exact hAll ⟨n, h⟩

theorem escapeCharacter {c : JsString} (h : IsCharacter c) : WellFormed (escapeCharacter c) := by
  cases h with
  | unit u =>
    rw [GreenPms.escapeCharacter]
    rcases escapeUnit_cases u with ⟨letter, hMem, hText⟩ | hText | ⟨hText, -, -, -, hHigh, hLow⟩
    · have hLetters : shortEscapes.all (fun escape => escape.2 < 0xD800) = true := by decide
      have hLetter := of_decide_eq_true (List.all_eq_true.mp hLetters _ hMem)
      rw [hText]
      exact of_units (by simpa using hLetter)
    · have hBound : u.toNat < 65536 := u.toNat_lt
      rw [hText]
      refine of_units ?_
      rw [unicodeEscape]
      simp only [List.forall_mem_cons]
      exact ⟨by decide, by decide, hexUnit_lt (by omega), hexUnit_lt (by omega), hexUnit_lt (by omega),
        hexUnit_lt (by omega), by simp⟩
    · rw [hText]
      exact .unit hHigh hLow .nil
  | pair hHigh hLow => exact .pair hHigh hLow .nil

theorem quoteString (s : JsString) : WellFormed (quoteString s) := by
  rw [GreenPms.quoteString]
  refine WellFormed.append (.unit (by decide) (by decide) (flatMap fun c hc => escapeCharacter (isCharacter_of_mem hc))) ?_
  exact .unit (by decide) (by decide) .nil

theorem of_all {s : JsString} (h : s.all (fun u => u < 0xD800) = true) : WellFormed s :=
  of_units fun u hu => of_decide_eq_true (List.all_eq_true.mp h u hu)

theorem literal : WellFormed (units "null") ∧ WellFormed (units "true") ∧ WellFormed (units "false") :=
  ⟨of_all (by decide), of_all (by decide), of_all (by decide)⟩

theorem stableJson (localeCompare : Collation) (v : JsValue) : WellFormed (JsValue.stableJson localeCompare v) := by
  induction v using JsValue.induct with
  | null => exact literal.1
  | bool value =>
    cases value with
    | false => exact literal.2.2
    | true => exact literal.2.1
  | num value => exact of_units fun u hu => numeric (numeric_numberText value u hu)
  | str value => exact quoteString value
  | arr items ih =>
    rw [JsValue.stableJson, JsValue.itemTexts_eq]
    refine bracketed (by decide) (by decide) (by decide) fun t ht => ?_
    obtain ⟨item, hItem, rfl⟩ := List.mem_map.mp ht
    exact ih item hItem
  | obj members ih =>
    rw [JsValue.stableJson, JsValue.definedTexts_eq]
    refine bracketed (by decide) (by decide) (by decide) fun t ht => ?_
    obtain ⟨entry, hEntry, rfl⟩ := List.mem_map.mp ht
    obtain ⟨m, hm, rfl⟩ := List.mem_map.mp ((JsValue.sorted_perm localeCompare _).mem_iff.mp hEntry)
    exact (quoteString m.1).append (.unit (by decide) (by decide) (ih m hm))

end JsString.WellFormed

/-! ## Hashes -/

def JsString.CollisionFree {Digest : Type} (sha256 : JsString → Digest) : Prop :=
  ∀ s t, WellFormed s → WellFormed t → sha256 s = sha256 t → s = t

section
variable {Digest : Type} {sha256 : JsString → Digest} (hDigest : CollisionFree sha256)
include hDigest

theorem stableHash_eq_iff (localeCompare : Collation) {v w : JsValue} :
    JsValue.stableHash sha256 localeCompare v = JsValue.stableHash sha256 localeCompare w ↔
      JsValue.stableJson localeCompare v = JsValue.stableJson localeCompare w := by
  constructor
  · exact hDigest _ _ (.stableJson localeCompare v) (.stableJson localeCompare w)
  · intro h
    rw [JsValue.stableHash, JsValue.stableHash, h]

end

theorem stablePart_keyed (projection : JsonObject) : (JsValue.obj (JsValue.stablePart projection.1)).Keyed := by
  obtain ⟨members, hKeyed⟩ := projection
  rw [JsValue.Keyed, JsValue.keyedMembers_iff] at hKeyed ⊢
  refine ⟨hKeyed.1.sublist (List.filter_sublist.map Prod.fst), fun m hm => hKeyed.2 m ?_⟩
  rw [JsValue.mem_defined] at hm ⊢
  exact List.mem_of_mem_filter hm

theorem pmsProjectionHash_eq_ok {Digest : Type} {sha256 : JsString → Digest} {projection : Members} {d : Digest}
    (h : JsValue.pmsProjectionHash sha256 projection = .ok d) :
    d = JsValue.stableHash sha256 JsValue.compareUnits (.obj (JsValue.stablePart projection)) := by
  obtain ⟨text, hText, hDigest⟩ := map_eq_ok.mp h
  rw [← hDigest, JsValue.canonicalProjectionJson_stable hText, JsValue.stableHash]

theorem pmsProjectionHash_ok_iff {Digest : Type} {sha256 : JsString → Digest} {projection : Members} :
    (∃ d, JsValue.pmsProjectionHash sha256 projection = .ok d) ↔ (JsValue.obj (JsValue.stablePart projection)).Accepted := by
  simp only [JsValue.pmsProjectionHash, JsValue.Accepted]
  cases JsValue.canonicalProjectionJson (.obj (JsValue.stablePart projection)) <;> simp [Except.map]

theorem collisionFree_id : CollisionFree (id : JsString → JsString) := fun _ _ _ _ h => h

def sampleEffect : JsonValue :=
  ⟨.obj [(units "amount", some (.num ⟨3 / 2, 3, -1, by decide, by decide, by decide, by norm_num⟩)),
    (units "nights", some (.arr [.null, .bool true])), (units "note", none)],
    by refine ⟨by decide, ?_⟩; simp [JsValue.KeyedMembers, JsValue.Keyed, JsValue.KeyedItems]⟩

/-- The same effect with its keys in another order and without the member that is not defined. -/
def sampleEffectReordered : JsonValue :=
  ⟨.obj [(units "nights", some (.arr [.null, .bool true])),
    (units "amount", some (.num ⟨3 / 2, 3, -1, by decide, by decide, by decide, by norm_num⟩))],
    by refine ⟨by decide, ?_⟩; simp [JsValue.KeyedMembers, JsValue.Keyed, JsValue.KeyedItems]⟩

def sampleProjection (observed : JsString) (unit : JsString) : JsonObject :=
  ⟨[(units "observed_at", some (.str observed)), (units "unit", some (.str unit))],
    by refine ⟨by simp; decide, ?_⟩; simp [JsValue.KeyedMembers, JsValue.Keyed]⟩

theorem sampleEffect_same : sampleEffect.1.Same sampleEffectReordered.1 := by
  refine ⟨⟨⟨_, rfl, rfl⟩, ⟨_, rfl, trivial, rfl, trivial⟩, trivial⟩, ?_⟩
  decide

theorem sampleProjection_part (observed unit : JsString) :
    JsValue.stablePart (sampleProjection observed unit).1 = [(units "unit", some (.str unit))] := by
  have hObserved : units "observed_at" ∈ JsValue.excludedKeys := by decide
  have hUnit : units "unit" ∉ JsValue.excludedKeys := by decide
  rw [JsValue.stablePart, sampleProjection, List.filter_cons_of_neg (by simpa using hObserved),
    List.filter_cons_of_pos (by simpa using hUnit), List.filter_nil]

theorem sampleProjection_hash (observed : JsString) :
    JsValue.pmsProjectionHash id (sampleProjection observed (units "7")).1 = .ok (units "\x7b\"unit\":\"7\"\x7d") := by
  have hString : JsValue.projectionString (units "7") = .ok (quoteString (units "7")) := rfl
  have hText : JsValue.projectionMember (units "unit", JsValue.projectionString (units "7")) = .ok (units "\"unit\":\"7\"") := rfl
  rw [JsValue.pmsProjectionHash, sampleProjection_part, JsValue.canonicalProjectionJson, JsValue.projectionMembers,
    JsValue.projectionMembers, JsValue.sortByKey, List.mergeSort_singleton, JsValue.canonicalProjectionJson,
    List.mapM_cons, hText, List.mapM_nil]
  rfl

end GreenPms
