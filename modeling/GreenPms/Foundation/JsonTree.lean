import Mathlib.Data.Bool.AllAny
import GreenPms.Foundation.CanonicalJson

/-! # Reading canonical texts

Members in a fixed order make a tree of a value. A string is read back character by character and a
tree by its first unit, so that no two trees have one text.
-/

namespace GreenPms

open JsString Delimited

/-! ## Strings -/

def unhex (u : UInt16) : Nat := if u < 58 then u.toNat - 48 else u.toNat - 87

def readHex : JsString → Option (JsString × JsString)
  | a :: b :: c :: d :: rest => some ([(unhex a * 4096 + unhex b * 256 + unhex c * 16 + unhex d).toUInt16], rest)
  | _ => none

def readCharacter : JsString → Option (JsString × JsString)
  | [] => none
  | [u] => some ([u], [])
  | u :: v :: rest =>
      if u = 92 then
        if v = 117 then readHex rest else (shortEscapes.find? (·.2 == v)).map fun escape => ([escape.1], rest)
      else if highSurrogate u && lowSurrogate v then some ([u, v], rest) else some ([u], v :: rest)

/-- What `Array.from` makes of a string. -/
inductive IsCharacter : JsString → Prop where
  | unit (u : UInt16) : IsCharacter [u]
  | pair {u v : UInt16} (high : highSurrogate u = true) (low : lowSurrogate v = true) : IsCharacter [u, v]

theorem isCharacter_of_mem {s c : JsString} (h : c ∈ characters s) : IsCharacter c := by
  fun_induction characters s with
  | case1 => cases h
  | case2 u =>
    rw [List.mem_singleton.mp h]
    exact .unit u
  | case3 u v rest hPair ih =>
    rcases List.mem_cons.mp h with rfl | hRest
    · obtain ⟨hHigh, hLow⟩ := Bool.and_eq_true_iff.mp hPair
      exact .pair hHigh hLow
    · exact ih hRest
  | case4 u v rest _ ih =>
    rcases List.mem_cons.mp h with rfl | hRest
    · exact .unit u
    · exact ih hRest

theorem unhex_hexUnit {n : Nat} (h : n < 16) : unhex (hexUnit n) = n := by
  have hAll : ∀ d : Fin 16, unhex (hexUnit d) = d := by decide
  exact hAll ⟨n, h⟩

theorem readCharacter_unicodeEscape (u : UInt16) (rest : JsString) :
    readCharacter (unicodeEscape u ++ rest) = some ([u], rest) := by
  have hBound : u.toNat < 65536 := u.toNat_lt
  have hNumber : u.toNat / 4096 * 4096 + u.toNat / 256 % 16 * 256 + u.toNat / 16 % 16 * 16 + u.toNat % 16 = u.toNat := by
    omega
  simp only [unicodeEscape, List.cons_append, List.nil_append, readCharacter, readHex, if_pos]
  rw [unhex_hexUnit (by omega), unhex_hexUnit (by omega), unhex_hexUnit (by omega), unhex_hexUnit (by omega), hNumber]
  simp

theorem mem_shortEscapes {u letter : UInt16} (h : shortEscapes.lookup u = some letter) : (u, letter) ∈ shortEscapes := by
  obtain ⟨before, after, hSplit, -⟩ := List.lookup_eq_some_iff.mp h
  rw [hSplit]
  exact List.mem_append_right before List.mem_cons_self

theorem shortEscape_read {escape : UInt16 × UInt16} (h : escape ∈ shortEscapes) :
    escape.2 ≠ 117 ∧ shortEscapes.find? (·.2 == escape.2) = some escape := by
  have hAll : shortEscapes.all (fun e => e.2 != 117 && shortEscapes.find? (·.2 == e.2) == some e) = true := by decide
  obtain ⟨hLetter, hFind⟩ := Bool.and_eq_true_iff.mp (List.all_eq_true.mp hAll escape h)
  exact ⟨bne_iff_ne.mp hLetter, eq_of_beq hFind⟩

theorem not_high {u : UInt16} (h : highSurrogate u = true) : u ≠ 92 ∧ u ≠ 34 := by
  constructor
  · rintro rfl
    exact absurd h (by decide)
  · rintro rfl
    exact absurd h (by decide)

theorem escapeUnit_cases (u : UInt16) : (∃ letter, (u, letter) ∈ shortEscapes ∧ escapeUnit u = [92, letter]) ∨
    escapeUnit u = unicodeEscape u ∨
    escapeUnit u = [u] ∧ 32 ≤ u ∧ u ≠ 92 ∧ u ≠ 34 ∧ highSurrogate u = false ∧ lowSurrogate u = false := by
  unfold escapeUnit
  cases hLookup : shortEscapes.lookup u with
  | some letter => exact .inl ⟨letter, mem_shortEscapes hLookup, rfl⟩
  | none =>
    dsimp only
    split
    case isTrue => exact .inr (.inl rfl)
    case isFalse hPlain =>
      simp only [Bool.or_eq_true, decide_eq_true_eq, not_or, UInt16.not_lt, Bool.not_eq_true] at hPlain
      refine .inr (.inr ⟨rfl, hPlain.1.1, ?_, ?_, hPlain.1.2, hPlain.2⟩)
      · rintro rfl
        exact absurd hLookup (by decide)
      · rintro rfl
        exact absurd hLookup (by decide)

theorem readCharacter_escape {c : JsString} (h : IsCharacter c) (rest : JsString) :
    readCharacter (escapeCharacter c ++ rest) = some (c, rest) := by
  cases h with
  | unit u =>
    rw [escapeCharacter]
    rcases escapeUnit_cases u with ⟨letter, hMem, hText⟩ | hText | ⟨hText, -, hEscape, -, hHigh, -⟩
    · obtain ⟨hLetter, hFind⟩ := shortEscape_read hMem
      rw [hText, List.cons_append, List.cons_append, readCharacter, if_pos rfl, if_neg hLetter, hFind]
      rfl
    · rw [hText, readCharacter_unicodeEscape]
    · rw [hText]
      cases rest with
      | nil => rfl
      | cons v rest =>
        rw [List.singleton_append, readCharacter, if_neg hEscape, hHigh, Bool.false_and, if_neg Bool.false_ne_true]
  | @pair u v hHigh hLow =>
    have hPair : (highSurrogate u && lowSurrogate v) = true := by rw [hHigh, hLow]; rfl
    rw [escapeCharacter, List.cons_append, List.cons_append, readCharacter, if_neg (not_high hHigh).1, if_pos hPair]
    · rfl
    · simp

theorem escapeCharacter_ne_quote {c : JsString} (h : IsCharacter c) (a b : JsString) : escapeCharacter c ++ a ≠ 34 :: b := by
  cases h with
  | unit u =>
    rw [escapeCharacter]
    rcases escapeUnit_cases u with ⟨letter, -, hText⟩ | hText | ⟨hText, -, -, hQuote, -, -⟩
    · rw [hText]
      exact fun hSame => absurd (List.cons.inj hSame).1 (by decide)
    · rw [hText]
      exact fun hSame => absurd (List.cons.inj hSame).1 (by decide)
    · rw [hText]
      exact fun hSame => hQuote (List.cons.inj hSame).1
  | pair hHigh _ => exact fun hSame => (not_high hHigh).2 (List.cons.inj hSame).1

theorem quoted_characters {cs ds : List JsString} (hcs : ∀ c ∈ cs, IsCharacter c) (hds : ∀ d ∈ ds, IsCharacter d)
    {a b : JsString} (h : cs.flatMap escapeCharacter ++ 34 :: a = ds.flatMap escapeCharacter ++ 34 :: b) : cs = ds ∧ a = b := by
  induction cs generalizing ds with
  | nil =>
    cases ds with
    | nil => exact ⟨rfl, (List.cons.inj h).2⟩
    | cons d ds =>
      rw [List.flatMap_cons, List.append_assoc] at h
      exact absurd h.symm (escapeCharacter_ne_quote (hds d List.mem_cons_self) _ _)
  | cons c cs ih =>
    obtain ⟨hHead, hTail⟩ := List.forall_mem_cons.mp hcs
    rw [List.flatMap_cons, List.append_assoc] at h
    cases ds with
    | nil => exact absurd h (escapeCharacter_ne_quote hHead _ _)
    | cons d ds =>
      rw [List.flatMap_cons, List.append_assoc] at h
      have hRead := readCharacter_escape hHead (cs.flatMap escapeCharacter ++ 34 :: a)
      rw [h, readCharacter_escape (hds d List.mem_cons_self), Option.some_inj, Prod.mk.injEq] at hRead
      obtain ⟨hRest, hAfter⟩ := ih hTail (List.forall_mem_cons.mp hds).2 hRead.2.symm
      exact ⟨by rw [hRead.1, hRest], hAfter⟩

theorem quoteString_ends (s : JsString) : Ends quoteString s := by
  intro t a b _ _ h
  simp only [quoteString, List.cons_append, List.append_assoc, List.nil_append] at h
  obtain ⟨hSame, hAfter⟩ :=
    quoted_characters (fun _ => isCharacter_of_mem) (fun _ => isCharacter_of_mem) (List.cons.inj h).2
  exact ⟨characters_injective hSame, hAfter⟩

/-! ## What a text is made of -/

theorem escapeUnit_printable (u : UInt16) : (∀ v ∈ escapeUnit u, 32 ≤ v) ∧ (escapeUnit u).length ≤ 6 := by
  rcases escapeUnit_cases u with ⟨letter, hMem, hText⟩ | hText | ⟨hText, hLow, -⟩
  · have hAll : shortEscapes.all (fun e => decide (32 ≤ e.2)) = true := by decide
    have hLetter := of_decide_eq_true (List.all_eq_true.mp hAll _ hMem)
    rw [hText]
    exact ⟨List.forall_mem_cons.mpr ⟨by decide, List.forall_mem_singleton.mpr hLetter⟩, Nat.le_of_ble_eq_true rfl⟩
  · have hAll : ∀ d : Fin 16, 32 ≤ hexUnit d := by decide
    have hHex {n : Nat} (h : n < 16) : 32 ≤ hexUnit n := hAll ⟨n, h⟩
    have hBound : u.toNat < 65536 := u.toNat_lt
    rw [hText]
    refine ⟨?_, Nat.le_refl 6⟩
    simp only [unicodeEscape, List.forall_mem_cons, List.not_mem_nil, false_imp_iff, implies_true, and_true]
    exact ⟨by decide, by decide, hHex (by omega), hHex (by omega), hHex (by omega), hHex (by omega)⟩
  · rw [hText]
    exact ⟨List.forall_mem_singleton.mpr hLow, Nat.le_of_ble_eq_true rfl⟩

theorem escapeCharacter_printable {c : JsString} (h : IsCharacter c) :
    (∀ v ∈ escapeCharacter c, 32 ≤ v) ∧ (escapeCharacter c).length ≤ 6 * c.length := by
  cases h with
  | unit u => exact escapeUnit_printable u
  | @pair u v hHigh hLow =>
    simp only [highSurrogate, lowSurrogate, Bool.and_eq_true, decide_eq_true_eq] at hHigh hLow
    refine ⟨List.forall_mem_cons.mpr ⟨?_, List.forall_mem_singleton.mpr ?_⟩, by simp [escapeCharacter]⟩
    · exact UInt16.le_trans (by decide) hHigh.1
    · exact UInt16.le_trans (by decide) hLow.1

/-- A quoted string has no control character, and six units for each of its own at most. -/
theorem quoteString_printable (s : JsString) :
    (∀ v ∈ quoteString s, 32 ≤ v) ∧ (quoteString s).length ≤ 6 * s.length + 2 := by
  have hCharacters : ∀ cs : List JsString, (∀ c ∈ cs, IsCharacter c) → (∀ v ∈ cs.flatMap escapeCharacter, 32 ≤ v) ∧
      (cs.flatMap escapeCharacter).length ≤ 6 * cs.flatten.length := by
    intro cs
    induction cs with
    | nil => exact fun _ => ⟨by simp, Nat.le_refl 0⟩
    | cons c cs ih =>
      intro h
      obtain ⟨hHead, hTail⟩ := List.forall_mem_cons.mp h
      obtain ⟨hUnits, hLength⟩ := escapeCharacter_printable hHead
      obtain ⟨hLater, hRest⟩ := ih hTail
      rw [List.flatMap_cons, List.length_append, List.flatten_cons, List.length_append]
      exact ⟨fun v hv => (List.mem_append.mp hv).elim (hUnits v) (hLater v), by omega⟩
  obtain ⟨hUnits, hLength⟩ := hCharacters _ fun _ => isCharacter_of_mem (s := s)
  rw [flatten_characters] at hLength
  constructor
  · intro v hv
    rcases List.mem_append.mp hv with hText | hEnd
    · rcases List.mem_cons.mp hText with rfl | hInside
      · decide
      · exact hUnits v hInside
    · rw [List.mem_singleton.mp hEnd]
      decide
  · rw [quoteString, List.length_append, List.length_cons, List.length_singleton]
    omega

/-! ## Trees -/

/-- A value whose members have an order and are all defined. -/
inductive JsonTree where
  | null
  | bool (value : Bool)
  | num (value : JsNumber)
  | str (value : JsString)
  | arr (items : List JsonTree)
  | obj (members : List (JsString × JsonTree))

namespace JsonTree

theorem induct {motive : JsonTree → Prop} (null : motive .null) (bool : ∀ value, motive (.bool value))
    (num : ∀ value, motive (.num value)) (str : ∀ value, motive (.str value))
    (arr : ∀ items, (∀ t ∈ items, motive t) → motive (.arr items))
    (obj : ∀ members, (∀ m ∈ members, motive m.2) → motive (.obj members)) (t : JsonTree) : motive t :=
  @JsonTree.rec motive (fun items => ∀ t ∈ items, motive t) (fun members => ∀ m ∈ members, motive m.2) (fun m => motive m.2)
    null bool num str arr obj (by simp) (fun _ _ hHead hTail => List.forall_mem_cons.mpr ⟨hHead, hTail⟩) (by simp)
    (fun _ _ hHead hTail => List.forall_mem_cons.mpr ⟨hHead, hTail⟩) (fun _ _ h => h) t

mutual
def text : JsonTree → JsString
  | null => units "null"
  | bool value => if value then units "true" else units "false"
  | num value => numberText value
  | str value => quoteString value
  | arr items => 91 :: (joined 44 (texts items) ++ [93])
  | obj members => 123 :: (joined 44 (memberTexts members) ++ [125])
def texts : List JsonTree → List JsString
  | [] => []
  | item :: rest => text item :: texts rest
def memberTexts : List (JsString × JsonTree) → List JsString
  | [] => []
  | (key, value) :: rest => JsValue.memberText (key, text value) :: memberTexts rest
end

theorem texts_eq (items : List JsonTree) : texts items = items.map text := by
  induction items with
  | nil => rfl
  | cons item rest ih => rw [texts, ih, List.map_cons]

theorem memberTexts_eq (members : List (JsString × JsonTree)) :
    memberTexts members = members.map fun m => quoteString m.1 ++ 58 :: text m.2 := by
  induction members with
  | nil => rfl
  | cons m rest ih => rw [memberTexts, ih, List.map_cons, JsValue.memberText]

/-! ## What a text begins with -/

def kind : JsonTree → Nat
  | null => 0
  | bool false => 1
  | bool true => 2
  | num _ => 3
  | str _ => 4
  | arr _ => 5
  | obj _ => 6

def unitKind (u : UInt16) : Nat :=
  if u = 45 || (48 ≤ u && u ≤ 57) then 3 else if u = 110 then 0 else if u = 102 then 1 else if u = 116 then 2
  else if u = 34 then 4 else if u = 91 then 5 else if u = 123 then 6 else 7

theorem text_head (t : JsonTree) : ∃ u rest, text t = u :: rest ∧ unitKind u = kind t := by
  cases t with
  | null => exact ⟨110, units "ull", by decide, rfl⟩
  | bool value =>
    cases value with
    | false => exact ⟨102, units "alse", by decide, rfl⟩
    | true => exact ⟨116, units "rue", by decide, rfl⟩
  | num x =>
    obtain ⟨u, rest, hText, hUnit⟩ := numberText_head x
    refine ⟨u, rest, hText, if_pos ?_⟩
    rw [Bool.or_eq_true, Bool.and_eq_true, decide_eq_true_eq, decide_eq_true_eq, decide_eq_true_eq]
    exact hUnit
  | str s => exact ⟨34, _, rfl, rfl⟩
  | arr items => exact ⟨91, _, rfl, rfl⟩
  | obj members => exact ⟨123, _, rfl, rfl⟩

inductive Alike : JsonTree → JsonTree → Prop where
  | null : Alike .null .null
  | bool (value : Bool) : Alike (.bool value) (.bool value)
  | num (x y : JsNumber) : Alike (.num x) (.num y)
  | str (s t : JsString) : Alike (.str s) (.str t)
  | arr (items others : List JsonTree) : Alike (.arr items) (.arr others)
  | obj (members others : List (JsString × JsonTree)) : Alike (.obj members) (.obj others)

theorem alike_of_kind {t w : JsonTree} (h : kind t = kind w) : Alike t w := by
  cases t with
  | bool value =>
    cases w with
    | bool other => cases value <;> cases other <;> first | exact .bool _ | simp [kind] at h
    | _ => cases value <;> simp [kind] at h
  | null | num _ | str _ | arr _ | obj _ =>
    cases w with
    | bool other => cases other <;> simp [kind] at h
    | _ => first | constructor | simp [kind] at h

theorem alike {t w : JsonTree} {a b : JsString} (h : text t ++ a = text w ++ b) : Alike t w := by
  obtain ⟨u, rest, hText, hKind⟩ := text_head t
  obtain ⟨v, rest', hText', hKind'⟩ := text_head w
  rw [hText, hText'] at h
  exact alike_of_kind (by rw [← hKind, ← hKind', (List.cons.inj h).1])

theorem kind_lt (t : JsonTree) : kind t < 7 := by
  cases t with
  | bool value => cases value <;> simp [kind]
  | _ => simp [kind]

/-! ## No two trees have one text -/

def Stop : JsString → Prop
  | [] => True
  | u :: _ => u = 44 ∨ u = 93 ∨ u = 125

theorem items_brackets : Brackets Stop text 44 93 where
  comma_stops _ := .inl rfl
  close_stops _ := .inr (.inl rfl)
  apart := by decide
  item_apart t a b h := by
    obtain ⟨u, rest, hText, hKind⟩ := text_head t
    rw [hText] at h
    have hBound := kind_lt t
    rw [← hKind, (List.cons.inj h).1] at hBound
    exact absurd hBound (by decide)

theorem members_brackets : Brackets Stop (fun m : JsString × JsonTree => quoteString m.1 ++ 58 :: text m.2) 44 125 where
  comma_stops _ := .inl rfl
  close_stops _ := .inr (.inr rfl)
  apart := by decide
  item_apart _ _ _ h := absurd (List.cons.inj h).1 (by decide)

theorem numberText_delimits (x : JsNumber) : Delimits Stop numberText x := by
  refine Delimits.of_span Decimal.numeric numeric_numberText ?_ numberText_injective x
  rintro u rest (rfl | rfl | rfl) <;> rfl

theorem text_delimits (t : JsonTree) : Delimits Stop text t := by
  induction t using induct with
  | null =>
    intro w a b _ _ h
    cases alike h with
    | null => exact ⟨rfl, List.append_cancel_left h⟩
  | bool value =>
    intro w a b _ _ h
    cases alike h with
    | bool => exact ⟨rfl, List.append_cancel_left h⟩
  | num x =>
    intro w a b ha hb h
    cases alike h with
    | num _ y =>
      obtain ⟨rfl, hAfter⟩ := numberText_delimits x y a b ha hb h
      exact ⟨rfl, hAfter⟩
  | str s =>
    intro w a b _ _ h
    cases alike h with
    | str _ t =>
      obtain ⟨rfl, hAfter⟩ := quoteString_ends s t a b trivial trivial h
      exact ⟨rfl, hAfter⟩
  | arr items ih =>
    intro w a b _ _ h
    cases alike h with
    | arr _ others =>
      rw [text, text, texts_eq, texts_eq] at h
      obtain ⟨rfl, hAfter⟩ := items_brackets.ends ih others a b trivial trivial (List.cons.inj h).2
      exact ⟨rfl, hAfter⟩
  | obj members ih =>
    intro w a b _ _ h
    cases alike h with
    | obj _ others =>
      rw [text, text, memberTexts_eq, memberTexts_eq] at h
      have hMembers : ∀ m ∈ members, Delimits Stop (fun m => quoteString m.1 ++ 58 :: text m.2) m :=
        fun m hm => Delimits.pair 58 (quoteString_ends m.1) (ih m hm)
      obtain ⟨rfl, hAfter⟩ := members_brackets.ends hMembers others a b trivial trivial (List.cons.inj h).2
      exact ⟨rfl, hAfter⟩

theorem text_injective : Function.Injective text := Delimits.injective trivial text_delimits

theorem numeric_printable {u : UInt16} (h : Decimal.numeric u = true) : 32 ≤ u := by
  simp only [Decimal.numeric, Bool.or_eq_true, Bool.and_eq_true, decide_eq_true_eq] at h
  rcases h with (((h | rfl) | rfl) | rfl) | rfl
  · exact UInt16.le_trans (by decide) h.1
  all_goals decide

theorem joined_printable {comma : UInt16} (hComma : 32 ≤ comma) {texts : List JsString}
    (h : ∀ text ∈ texts, ∀ u ∈ text, 32 ≤ u) : ∀ u ∈ joined comma texts, 32 ≤ u := by
  cases texts with
  | nil => simp [joined, List.intercalate]
  | cons text texts =>
    obtain ⟨hHead, hTail⟩ := List.forall_mem_cons.mp h
    rw [joined_cons]
    intro u hu
    rcases List.mem_append.mp hu with hFirst | hLater
    · exact hHead u hFirst
    · obtain ⟨other, hOther, hUnit⟩ := List.mem_flatMap.mp hLater
      rcases List.mem_cons.mp hUnit with rfl | hText
      · exact hComma
      · exact hTail other hOther u hText

/-- A text has no control character, so that it is one line. -/
theorem text_printable (t : JsonTree) : ∀ u ∈ text t, 32 ≤ u := by
  induction t using induct with
  | null => exact List.all_iff_forall_prop.mp (by decide)
  | bool value => cases value <;> exact List.all_iff_forall_prop.mp (by decide)
  | num x => exact fun u hu => numeric_printable (numeric_numberText x u hu)
  | str s => exact (quoteString_printable s).1
  | arr items ih =>
    rw [text, texts_eq]
    have hItems := joined_printable (show (32 : UInt16) ≤ 44 by decide) (List.forall_mem_map.mpr ih)
    refine List.forall_mem_cons.mpr ⟨by decide, fun u hu => ?_⟩
    rcases List.mem_append.mp hu with hText | hEnd
    · exact hItems u hText
    · rw [List.mem_singleton.mp hEnd]
      decide
  | obj members ih =>
    rw [text, memberTexts_eq]
    have hMember : ∀ m ∈ members, ∀ u ∈ quoteString m.1 ++ 58 :: text m.2, 32 ≤ u := by
      intro m hm u hu
      rcases List.mem_append.mp hu with hKey | hValue
      · exact (quoteString_printable m.1).1 u hKey
      · rcases List.mem_cons.mp hValue with rfl | hText
        · decide
        · exact ih m hm u hText
    have hMembers := joined_printable (show (32 : UInt16) ≤ 44 by decide) (List.forall_mem_map.mpr hMember)
    refine List.forall_mem_cons.mpr ⟨by decide, fun u hu => ?_⟩
    rcases List.mem_append.mp hu with hText | hEnd
    · exact hMembers u hText
    · rw [List.mem_singleton.mp hEnd]
      decide

end JsonTree

end GreenPms
