import GreenPms.Foundation.CanonicalHash

/-! # Bytes of texts

A text is sent as UTF-8, where a surrogate without its partner becomes U+FFFD. What `JSON.stringify`
writes has no such unit, so that an array of texts is read back from its bytes.
-/

namespace GreenPms

open JsString Delimited

/-! ## Code points -/

namespace JsString

def unitPoint (u : UInt16) : Char :=
  if highSurrogate u || lowSurrogate u then Char.ofNat 0xFFFD else Char.ofNat u.toNat

def pairPoint (u v : UInt16) : Char := Char.ofNat (0x10000 + (u.toNat - 0xD800) * 0x400 + (v.toNat - 0xDC00))

def codePoints : JsString → List Char
  | [] => []
  | [u] => [unitPoint u]
  | u :: v :: rest =>
      if highSurrogate u && lowSurrogate v then pairPoint u v :: codePoints rest else unitPoint u :: codePoints (v :: rest)

def utf8 (text : JsString) : List UInt8 := (codePoints text).flatMap String.utf8EncodeChar

def decodeUtf8 (bytes : List UInt8) : Option JsString :=
  bytes.toByteArray.utf8Decode?.map fun points => units (String.ofList points.toList)

theorem codePoints_cons {u : UInt16} (h : highSurrogate u = false) (rest : JsString) :
    codePoints (u :: rest) = unitPoint u :: codePoints rest := by
  cases rest with
  | nil => rfl
  | cons v rest => rw [codePoints, h, Bool.false_and, if_neg Bool.false_ne_true]

theorem units_cons (c : Char) (cs : List Char) :
    units (String.ofList (c :: cs)) = units (String.ofList [c]) ++ units (String.ofList cs) := by
  simp [units]

theorem units_unitPoint {u : UInt16} (hHigh : highSurrogate u = false) (hLow : lowSurrogate u = false) :
    units (String.ofList [unitPoint u]) = [u] := by
  have hBound : u.toNat < 0x10000 := u.toNat_lt
  have hValid : u.toNat.isValidChar := by
    simp only [highSurrogate, lowSurrogate, Bool.and_eq_false_iff, decide_eq_false_iff_not, UInt16.le_iff_toNat_le,
      UInt16.reduceToNat] at hHigh hLow
    unfold Nat.isValidChar
    omega
  have hNat : (unitPoint u).toNat = u.toNat := by
    rw [unitPoint, hHigh, hLow, Bool.false_or, if_neg Bool.false_ne_true, Char.ofNat, dif_pos hValid]
    rfl
  simp [units, hNat, hBound]

theorem units_pairPoint {u v : UInt16} (hHigh : highSurrogate u = true) (hLow : lowSurrogate v = true) :
    units (String.ofList [pairPoint u v]) = [u, v] := by
  simp only [highSurrogate, lowSurrogate, Bool.and_eq_true, decide_eq_true_eq, UInt16.le_iff_toNat_le,
    UInt16.reduceToNat] at hHigh hLow
  have hValid : (0x10000 + (u.toNat - 0xD800) * 0x400 + (v.toNat - 0xDC00)).isValidChar := by
    unfold Nat.isValidChar
    omega
  have hNat : (pairPoint u v).toNat = 0x10000 + (u.toNat - 0xD800) * 0x400 + (v.toNat - 0xDC00) := by
    rw [pairPoint, Char.ofNat, dif_pos hValid]
    rfl
  have hBound : ¬ (pairPoint u v).toNat < 0x10000 := by omega
  have hFirst : 0xD800 + ((pairPoint u v).toNat - 0x10000) / 0x400 = u.toNat := by omega
  have hSecond : 0xDC00 + ((pairPoint u v).toNat - 0x10000) % 0x400 = v.toNat := by omega
  simp only [units, String.toList_ofList, List.flatMap_cons, List.flatMap_nil, List.append_nil, if_neg hBound, hFirst, hSecond]
  simp

theorem units_codePoints {text : JsString} (h : WellFormed text) : units (String.ofList (codePoints text)) = text := by
  induction h with
  | nil => rfl
  | unit high low _ ih => rw [codePoints_cons high, units_cons, ih, units_unitPoint high low]; rfl
  | pair high low _ ih =>
    rw [codePoints, high, low, Bool.and_self, if_pos rfl, units_cons, ih, units_pairPoint high low]
    rfl

theorem decodeUtf8_utf8 {text : JsString} (h : WellFormed text) : decodeUtf8 (utf8 text) = some text := by
  have hDecode : (utf8 text).toByteArray.utf8Decode? = some (codePoints text).toArray := List.utf8Decode?_utf8Encode
  rw [decodeUtf8, hDecode, Option.map_some, List.toList_toArray, units_codePoints h]

theorem eq_nil_of_utf8 {text : JsString} (h : utf8 text = []) : text = [] := by
  have hPoints : codePoints text = [] := by
    rw [utf8, List.flatMap_eq_nil_iff] at h
    refine List.eq_nil_iff_forall_not_mem.mpr fun c hc => ?_
    have hSize := c.utf8Size_pos
    rw [← String.length_utf8EncodeChar, h c hc] at hSize
    exact absurd hSize (Nat.lt_irrefl 0)
  fun_cases codePoints text with
  | case1 => rfl
  | case2 u => cases hPoints
  | case3 u v rest hPair => simp [codePoints, hPair] at hPoints
  | case4 u v rest hPair => simp [codePoints, hPair] at hPoints

end JsString

/-! ## Arrays of texts -/

def readQuoted : Nat → JsString → Option (JsString × JsString)
  | 0, _ => none
  | fuel + 1, text =>
      if text.head? = some 34 then some ([], text.tail)
      else do
        let (c, rest) ← readCharacter text
        let (later, after) ← readQuoted fuel rest
        some (c ++ later, after)

def readTexts : Nat → JsString → Option (List JsString)
  | 0, _ => none
  | fuel + 1, text =>
      match text with
      | 44 :: 34 :: rest => do
        let (first, after) ← readQuoted (rest.length + 1) rest
        let later ← readTexts fuel after
        some (first :: later)
      | [93] => some []
      | _ => none

/-- `JSON.parse` of an array of texts. -/
def parseTexts : JsString → Option JsonTree
  | [91, 93] => some (.arr [])
  | 91 :: rest => (readTexts (rest.length + 1) (44 :: rest)).map fun texts => .arr (texts.map .str)
  | _ => none

theorem escapeCharacter_length {c : JsString} (h : IsCharacter c) : 0 < (escapeCharacter c).length := by
  cases h with
  | unit u =>
    rw [escapeCharacter]
    rcases escapeUnit_cases u with ⟨letter, -, hText⟩ | hText | ⟨hText, -⟩ <;> rw [hText] <;> exact Nat.succ_pos _
  | pair _ _ => exact Nat.succ_pos _

theorem readQuoted_escaped {cs : List JsString} (hcs : ∀ c ∈ cs, IsCharacter c) {fuel : Nat} (hFuel : cs.length < fuel)
    (rest : JsString) : readQuoted fuel (cs.flatMap escapeCharacter ++ 34 :: rest) = some (cs.flatten, rest) := by
  induction cs generalizing fuel with
  | nil =>
    obtain ⟨fuel, rfl⟩ := Nat.exists_eq_succ_of_ne_zero (Nat.ne_zero_of_lt hFuel)
    rfl
  | cons c cs ih =>
    obtain ⟨fuel, rfl⟩ := Nat.exists_eq_succ_of_ne_zero (Nat.ne_zero_of_lt hFuel)
    obtain ⟨hHead, hTail⟩ := List.forall_mem_cons.mp hcs
    rw [List.flatMap_cons, List.append_assoc, readQuoted, if_neg, readCharacter_escape hHead]
    · simp only [Option.bind_eq_bind, Option.bind_some, ih hTail (Nat.lt_of_succ_lt_succ hFuel), List.flatten_cons]
    · intro hQuote
      obtain ⟨after, hAfter⟩ := List.head?_eq_some_iff.mp hQuote
      exact escapeCharacter_ne_quote hHead _ _ hAfter

theorem length_le_escaped {cs : List JsString} (hcs : ∀ c ∈ cs, IsCharacter c) :
    cs.length ≤ (cs.flatMap escapeCharacter).length := by
  induction cs with
  | nil => exact Nat.zero_le _
  | cons c cs ih =>
    obtain ⟨hHead, hTail⟩ := List.forall_mem_cons.mp hcs
    have hFirst := escapeCharacter_length hHead
    have hRest := ih hTail
    rw [List.flatMap_cons, List.length_append, List.length_cons]
    omega

theorem readTexts_quoted (texts : List JsString) {fuel : Nat} (hFuel : texts.length < fuel) :
    readTexts fuel (texts.flatMap (44 :: quoteString ·) ++ [93]) = some texts := by
  induction texts generalizing fuel with
  | nil =>
    obtain ⟨fuel, rfl⟩ := Nat.exists_eq_succ_of_ne_zero (Nat.ne_zero_of_lt hFuel)
    rfl
  | cons text texts ih =>
    obtain ⟨fuel, rfl⟩ := Nat.exists_eq_succ_of_ne_zero (Nat.ne_zero_of_lt hFuel)
    have hCharacters : ∀ c ∈ characters text, IsCharacter c := fun _ => isCharacter_of_mem
    have hLength : (characters text).length <
        ((characters text).flatMap escapeCharacter ++ 34 :: (texts.flatMap (44 :: quoteString ·) ++ [93])).length + 1 := by
      have hEscaped := length_le_escaped hCharacters
      rw [List.length_append]
      omega
    have hFirst := readQuoted_escaped hCharacters hLength (texts.flatMap (44 :: quoteString ·) ++ [93])
    rw [flatten_characters] at hFirst
    simp only [List.flatMap_cons, quoteString, List.cons_append, List.append_assoc, List.nil_append, readTexts]
    simp only [quoteString, List.cons_append] at hFirst ih
    rw [hFirst]
    simp only [Option.bind_eq_bind, Option.bind_some, ih (Nat.lt_of_succ_lt_succ hFuel)]

theorem text_texts (first : JsString) (later : List JsString) : (JsonTree.arr ((first :: later).map .str)).text =
    91 :: (quoteString first ++ (later.flatMap (44 :: quoteString ·) ++ [93])) := by
  have hTexts (texts : List JsString) : (texts.map JsonTree.str).map JsonTree.text = texts.map quoteString := by
    rw [List.map_map]
    exact List.map_congr_left fun text _ => rfl
  rw [JsonTree.text, JsonTree.texts_eq, hTexts, List.map_cons, joined_cons, List.flatMap_map, List.append_assoc]

theorem parseTexts_text (texts : List JsString) :
    parseTexts (JsonTree.arr (texts.map .str)).text = some (.arr (texts.map .str)) := by
  cases texts with
  | nil => rfl
  | cons first later =>
    have hFuel : (first :: later).length < (quoteString first ++ (later.flatMap (44 :: quoteString ·) ++ [93])).length + 1 := by
      have hEach : later.length ≤ (later.flatMap (44 :: quoteString ·)).length := by
        induction later with
        | nil => exact Nat.zero_le _
        | cons text later ih =>
          simp only [List.flatMap_cons, List.length_append, List.length_cons]
          omega
      simp only [quoteString, List.length_append, List.length_cons, List.length_nil] at hEach ⊢
      omega
    have hRead := readTexts_quoted (first :: later) hFuel
    rw [List.flatMap_cons, List.cons_append, List.cons_append, List.append_assoc] at hRead
    rw [text_texts, parseTexts, hRead, Option.map_some]
    rintro hEmpty
    simp [quoteString] at hEmpty

theorem JsString.WellFormed.texts (texts : List JsString) : WellFormed (JsonTree.arr (texts.map .str)).text := by
  rw [JsonTree.text, JsonTree.texts_eq]
  refine .bracketed (by decide) (by decide) (by decide) ?_
  simp only [List.map_map, List.mem_map, forall_exists_index, and_imp]
  rintro _ text - rfl
  exact .quoteString text

theorem parse_utf8_texts (texts : List JsString) :
    (decodeUtf8 (utf8 (JsonTree.arr (texts.map .str)).text)).bind parseTexts = some (.arr (texts.map .str)) := by
  rw [decodeUtf8_utf8 (JsString.WellFormed.texts texts), Option.bind_some, parseTexts_text]

end GreenPms
