import GreenPms.Foundation.Number
import GreenPms.Library.Delimited

/-! # Canonical texts of JSON values

The two encoders that hashes are taken of, over strings of UTF-16 units and doubles: `stableJson`
with the collation of the runtime as a parameter, and `canonicalProjectionJson` with the order of
units. `undefined` is met as the value of a member only. The module `Json` is for callers that
read fields and take a text as it comes.
-/

namespace GreenPms

open JsString Delimited

inductive JsValue where
  | null
  | bool (value : Bool)
  | num (value : JsNumber)
  | str (value : JsString)
  | arr (items : List JsValue)
  | obj (members : List (JsString × Option JsValue))

abbrev Members := List (JsString × Option JsValue)

abbrev Collation := JsString → JsString → Ordering

/-! ## Strings -/

/-- The characters that `JSON.stringify` escapes by a letter. -/
def shortEscapes : List (UInt16 × UInt16) := [(8, 98), (9, 116), (10, 110), (12, 102), (13, 114), (34, 34), (92, 92)]

def hexUnit (n : Nat) : UInt16 := if n < 10 then (48 + n).toUInt16 else (87 + n).toUInt16

/-- `UnicodeEscape`. -/
def unicodeEscape (u : UInt16) : JsString :=
  let n := u.toNat
  [92, 117, hexUnit (n / 4096), hexUnit (n / 256 % 16), hexUnit (n / 16 % 16), hexUnit (n % 16)]

def escapeUnit (u : UInt16) : JsString :=
  match shortEscapes.lookup u with
  | some letter => [92, letter]
  | none => if u < 32 || highSurrogate u || lowSurrogate u then unicodeEscape u else [u]

def escapeCharacter (c : JsString) : JsString :=
  match c with
  | [u] => escapeUnit u
  | _ => c

/-- `QuoteJSONString`. -/
def quoteString (s : JsString) : JsString := 34 :: (characters s).flatMap escapeCharacter ++ [34]

/-! ## The stable text -/

namespace JsValue

def sortByKey (localeCompare : Collation) {α : Type} (entries : List (JsString × α)) : List (JsString × α) :=
  entries.mergeSort fun left right => (localeCompare left.1 right.1).isLE

def memberText (entry : JsString × JsString) : JsString := quoteString entry.1 ++ 58 :: entry.2

mutual
def stableJson (localeCompare : Collation) : JsValue → JsString
  | .null => units "null"
  | .bool value => if value then units "true" else units "false"
  | .num value => numberText value
  | .str value => quoteString value
  | .arr items => 91 :: (joined 44 (itemTexts localeCompare items) ++ [93])
  | .obj members =>
      123 :: (joined 44 ((sortByKey localeCompare (definedTexts localeCompare members)).map memberText) ++ [125])
def itemTexts (localeCompare : Collation) : List JsValue → List JsString
  | [] => []
  | item :: rest => stableJson localeCompare item :: itemTexts localeCompare rest
def definedTexts (localeCompare : Collation) : Members → List (JsString × JsString)
  | [] => []
  | (_, none) :: rest => definedTexts localeCompare rest
  | (key, some entry) :: rest => (key, stableJson localeCompare entry) :: definedTexts localeCompare rest
end

/-! ## The text of a projection -/

/-- The order of `sort` without a comparison. -/
abbrev compareUnits : Collation := List.compareLex compare

def oneUnit (p : UInt16 → Bool) : JsString → Bool
  | [u] => p u
  | _ => false

/-- The search for a high surrogate without a low one behind it or a low one without a high one in
front. The pattern reads characters, so a pair is no such unit. -/
def loneSurrogate (previous : Option JsString) : List JsString → Bool
  | [] => false
  | c :: rest =>
      oneUnit highSurrogate c && !rest.head?.any (oneUnit lowSurrogate) ||
      !previous.any (oneUnit highSurrogate) && oneUnit lowSurrogate c || loneSurrogate (some c) rest

def projectionString (s : JsString) : Except String JsString :=
  if loneSurrogate none (characters s) then .error "INVALID_UNICODE" else .ok (quoteString s)

def projectionMember (member : JsString × Except String JsString) : Except String JsString := do
  let key ← projectionString member.1
  let text ← member.2
  return key ++ 58 :: text

mutual
def canonicalProjectionJson : JsValue → Except String JsString
  | .null => .ok (units "null")
  | .bool value => .ok (if value then units "true" else units "false")
  | .str value => projectionString value
  | .arr items => do
      let texts ← (projectionItems items).mapM id
      return 91 :: (joined 44 texts ++ [93])
  | .obj members => do
      let texts ← (sortByKey compareUnits (projectionMembers members)).mapM projectionMember
      return 123 :: (joined 44 texts ++ [125])
  | .num _ => .error "INVALID_PROJECTION_VALUE"
def projectionItems : List JsValue → List (Except String JsString)
  | [] => []
  | item :: rest => canonicalProjectionJson item :: projectionItems rest
def projectionMembers : Members → List (JsString × Except String JsString)
  | [] => []
  | (key, none) :: rest => (key, .error "INVALID_PROJECTION_VALUE") :: projectionMembers rest
  | (key, some entry) :: rest => (key, canonicalProjectionJson entry) :: projectionMembers rest
end

/-! ## Hashes -/

section
variable {Digest : Type} (sha256 : JsString → Digest)

def stableHash (localeCompare : Collation) (value : JsValue) : Digest := sha256 (stableJson localeCompare value)

def excludedKeys : List JsString := [units "projection_hash", units "observed_at", units "read_context"]

def stablePart (projection : Members) : Members := projection.filter fun member => !excludedKeys.contains member.1

def pmsProjectionHash (projection : Members) : Except String Digest :=
  (canonicalProjectionJson (.obj (stablePart projection))).map sha256

end

/-! ## Equality up to the order of keys -/

/-- The members whose value is not `undefined`. -/
def defined (members : Members) : List (JsString × JsValue) :=
  members.filterMap fun member => member.2.map fun value => (member.1, value)

mutual
/-- Members are compared by their keys, and `undefined` members not at all. -/
def Same : JsValue → JsValue → Prop
  | .null, .null => True
  | .bool value, .bool other => value = other
  | .num value, .num other => value = other
  | .str value, .str other => value = other
  | .arr items, .arr others => SameItems items others
  | .obj members, .obj others =>
      SameMembers members (defined others) ∧ ∀ key ∈ (defined others).map Prod.fst, key ∈ (defined members).map Prod.fst
  | _, _ => False
def SameItems : List JsValue → List JsValue → Prop
  | [], [] => True
  | item :: rest, other :: others => Same item other ∧ SameItems rest others
  | _, _ => False
def SameMembers : Members → List (JsString × JsValue) → Prop
  | [], _ => True
  | (_, none) :: rest, others => SameMembers rest others
  | (key, some entry) :: rest, others =>
      (∃ other, others.lookup key = some other ∧ Same entry other) ∧ SameMembers rest others
end

mutual
def Keyed : JsValue → Prop
  | .arr items => KeyedItems items
  | .obj members => (members.map Prod.fst).Nodup ∧ KeyedMembers members
  | _ => True
def KeyedItems : List JsValue → Prop
  | [] => True
  | item :: rest => Keyed item ∧ KeyedItems rest
def KeyedMembers : Members → Prop
  | [] => True
  | (_, none) :: rest => KeyedMembers rest
  | (_, some entry) :: rest => Keyed entry ∧ KeyedMembers rest
end

end JsValue

abbrev JsonValue := {value : JsValue // value.Keyed}

abbrev JsonObject := {members : Members // (JsValue.obj members).Keyed}

namespace JsValue

mutual
def keys : JsValue → List JsString
  | .arr items => itemKeys items
  | .obj members => memberKeys members
  | _ => []
def itemKeys : List JsValue → List JsString
  | [] => []
  | item :: rest => keys item ++ itemKeys rest
def memberKeys : Members → List JsString
  | [] => []
  | (_, none) :: rest => memberKeys rest
  | (key, some entry) :: rest => key :: keys entry ++ memberKeys rest
end

mutual
/-- No member has the value `undefined`. -/
def AllDefined : JsValue → Prop
  | .arr items => AllDefinedItems items
  | .obj members => AllDefinedMembers members
  | _ => True
def AllDefinedItems : List JsValue → Prop
  | [] => True
  | item :: rest => AllDefined item ∧ AllDefinedItems rest
def AllDefinedMembers : Members → Prop
  | [] => True
  | (_, none) :: _ => False
  | (_, some entry) :: rest => AllDefined entry ∧ AllDefinedMembers rest
end

end JsValue

structure StrictTotal (compare : Collation) (keys : List JsString) : Prop where
  eq : ∀ a ∈ keys, ∀ b ∈ keys, compare a b = .eq ↔ a = b
  swap : ∀ a ∈ keys, ∀ b ∈ keys, compare b a = (compare a b).swap
  trans : ∀ a ∈ keys, ∀ b ∈ keys, ∀ c ∈ keys, compare a b = .lt → compare b c = .lt → compare a c = .lt

end GreenPms
