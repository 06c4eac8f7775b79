import Mathlib.Algebra.GroupWithZero.Nat
import Mathlib.Data.List.DropRight

/-! # Strings of the JavaScript runtime

A string is a list of UTF-16 code units. Its characters are its code points: a high surrogate and
the low one that follows it are one character, and any other unit is one by itself.
-/

namespace GreenPms

abbrev JsString := List UInt16

instance : LawfulBEq JsString := inferInstance

namespace JsString

def highSurrogate (u : UInt16) : Bool := 0xD800 ≤ u && u ≤ 0xDBFF

def lowSurrogate (u : UInt16) : Bool := 0xDC00 ≤ u && u ≤ 0xDFFF

/-- `Array.from`: the characters of a string, each by its one or two units. -/
def characters : JsString → List JsString
  | [] => []
  | [u] => [[u]]
  | u :: v :: rest =>
      if highSurrogate u && lowSurrogate v then [u, v] :: characters rest else [u] :: characters (v :: rest)

def units (literal : String) : JsString :=
  literal.toList.flatMap fun c =>
    if c.toNat < 0x10000 then [c.toNat.toUInt16]
    else [(0xD800 + (c.toNat - 0x10000) / 0x400).toUInt16, (0xDC00 + (c.toNat - 0x10000) % 0x400).toUInt16]

theorem flatten_characters (s : JsString) : (characters s).flatten = s := by
  fun_induction characters s with
  | case1 => rfl
  | case2 u => rfl
  | case3 u v rest _ ih => rw [List.flatten_cons, ih]; rfl
  | case4 u v rest _ ih => rw [List.flatten_cons, ih]; rfl

theorem characters_injective : Function.Injective characters := by
  intro s t hSame
  rw [← flatten_characters s, hSame, flatten_characters]

end JsString

/-! ## Texts of requests -/

/-- The characters that `trim` strips. -/
def whitespace (c : Char) : Bool :=
  c.toNat ∈ [0x9, 0xa, 0xb, 0xc, 0xd, 0x20, 0xa0, 0x1680, 0x2028, 0x2029, 0x202f, 0x205f, 0x3000, 0xfeff] ∨
    (0x2000 ≤ c.toNat ∧ c.toNat ≤ 0x200a)

def trimText (value : String) : String :=
  String.ofList ((value.toList.dropWhile whitespace).rdropWhile whitespace)

/-- The `length` of a text, in units. -/
def unitCount (value : String) : Nat := (value.toList.map fun c => if c.toNat < 0x10000 then 1 else 2).sum

end GreenPms
