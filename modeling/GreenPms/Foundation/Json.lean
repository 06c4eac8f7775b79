import Mathlib.Data.Rat.Defs
import Mathlib.Data.String.Basic

/-! # JSON values and their canonical text

The text is the one that every preview, basis and request hash of the command protocol is
taken of. The collation used for object keys, the printing of numbers and the digest belong
to the JavaScript runtime and are parameters.
-/

namespace GreenPms

inductive Json where
  | null
  | bool (value : Bool)
  | num (value : Rat)
  | str (value : String)
  | arr (items : List Json)
  | obj (entries : List (String × Json))

structure JsRuntime where
  localeCompare : String → String → Ordering
  numberText : Rat → String
  trim : String → String
  sha256 : String → String

namespace Json

def hexDigit (n : Nat) : Char := if n < 10 then Char.ofNat (48 + n) else Char.ofNat (87 + n)

/-- `JSON.stringify` of one character of a string. -/
def escapeChar (c : Char) : List Char :=
  match c.toNat with
  | 8 => ['\\', 'b']
  | 9 => ['\\', 't']
  | 10 => ['\\', 'n']
  | 12 => ['\\', 'f']
  | 13 => ['\\', 'r']
  | 34 => ['\\', '"']
  | 92 => ['\\', '\\']
  | n => if n < 32 then ['\\', 'u', '0', '0', hexDigit (n / 16), hexDigit (n % 16)] else [c]

def quote (s : String) : String := String.ofList ('"' :: s.toList.flatMap escapeChar ++ ['"'])

/-- Insertion that keeps entries with equal keys in their order, as a stable sort does. -/
def insertEntry (cmp : String → String → Ordering) (e : String × String) :
    List (String × String) → List (String × String)
  | [] => [e]
  | f :: rest => if cmp e.1 f.1 = .gt then f :: insertEntry cmp e rest else e :: f :: rest

def sortEntries (cmp : String → String → Ordering) : List (String × String) → List (String × String)
  | [] => []
  | e :: rest => insertEntry cmp e (sortEntries cmp rest)

mutual
def stableJson (rt : JsRuntime) : Json → String
  | .null => "null"
  | .bool b => if b then "true" else "false"
  | .num n => rt.numberText n
  | .str s => quote s
  | .arr items => "[" ++ String.intercalate "," (itemTexts rt items) ++ "]"
  | .obj entries => "\x7b" ++ String.intercalate ","
      ((sortEntries rt.localeCompare (entryTexts rt entries)).map fun e => quote e.1 ++ ":" ++ e.2) ++ "\x7d"
def itemTexts (rt : JsRuntime) : List Json → List String
  | [] => []
  | item :: rest => stableJson rt item :: itemTexts rt rest
def entryTexts (rt : JsRuntime) : List (String × Json) → List (String × String)
  | [] => []
  | (key, entry) :: rest => (key, stableJson rt entry) :: entryTexts rt rest
end

def stableHash (rt : JsRuntime) (value : Json) : String := rt.sha256 (stableJson rt value)

/-- `asRecord`: an object that is not an array. -/
def asRecord : Json → Option (List (String × Json))
  | .obj entries => some entries
  | _ => none

def field (entries : List (String × Json)) (key : String) : Json := (entries.lookup key).getD .null

/-- A string field, trimmed; anything else reads as the empty string. -/
def trimmedField (rt : JsRuntime) (entries : List (String × Json)) (key : String) : String :=
  match field entries key with
  | .str value => rt.trim value
  | _ => ""

end Json

end GreenPms
