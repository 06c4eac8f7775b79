import Mathlib.Data.List.Basic

/-! # Base64 texts for addresses

Three bytes are four units of an alphabet of sixty-four, and the last one or two bytes are two or three.
There is no padding, and decoding gives the bytes that were encoded.
-/

namespace Base64Url

/-! ## The alphabet -/

/-- `A`-`Z`, `a`-`z`, `0`-`9`, `-` and `_`. -/
def unit (n : Nat) : UInt16 :=
  if n < 26 then (65 + n).toUInt16
  else if n < 52 then (71 + n).toUInt16
  else if n < 62 then (n - 4).toUInt16
  else if n = 62 then 45
  else 95

def value (u : UInt16) : Option Nat :=
  if 65 ≤ u ∧ u ≤ 90 then some (u.toNat - 65)
  else if 97 ≤ u ∧ u ≤ 122 then some (u.toNat - 71)
  else if 48 ≤ u ∧ u ≤ 57 then some (u.toNat + 4)
  else if u = 45 then some 62
  else if u = 95 then some 63
  else none

/-- `[A-Za-z0-9_-]` -/
def isUnit (u : UInt16) : Bool := (value u).isSome

theorem value_unit {n : Nat} (h : n < 64) : value (unit n) = some n := by
  have hAll : ∀ d : Fin 64, value (unit d) = some d.val := by decide
  exact hAll ⟨n, h⟩

theorem isUnit_unit {n : Nat} (h : n < 64) : isUnit (unit n) = true := by
  rw [isUnit, value_unit h]
  rfl

/-! ## Bytes -/

def encode : List UInt8 → List UInt16
  | a :: b :: c :: rest =>
      unit (a.toNat / 4) :: unit (a.toNat % 4 * 16 + b.toNat / 16) :: unit (b.toNat % 16 * 4 + c.toNat / 64) ::
        unit (c.toNat % 64) :: encode rest
  | [a, b] => [unit (a.toNat / 4), unit (a.toNat % 4 * 16 + b.toNat / 16), unit (b.toNat % 16 * 4)]
  | [a] => [unit (a.toNat / 4), unit (a.toNat % 4 * 16)]
  | [] => []

/-- The bytes of four numbers below sixty-four, of the last three or of the last two. -/
def pack : List Nat → List UInt8
  | p :: q :: r :: s :: rest =>
      (p * 4 + q / 16).toUInt8 :: (q % 16 * 16 + r / 4).toUInt8 :: (r % 4 * 64 + s).toUInt8 :: pack rest
  | [p, q, r] => [(p * 4 + q / 16).toUInt8, (q % 16 * 16 + r / 4).toUInt8]
  | [p, q] => [(p * 4 + q / 16).toUInt8]
  | _ => []

def decode (text : List UInt16) : List UInt8 := pack (text.filterMap value)

theorem isUnit_encode (bytes : List UInt8) : ∀ u ∈ encode bytes, isUnit u = true := by
  fun_induction encode bytes with
  | case1 a b c rest ih =>
    have ha := a.toNat_lt
    have hb := b.toNat_lt
    have hc := c.toNat_lt
    refine List.forall_mem_cons.mpr ⟨isUnit_unit (by omega), List.forall_mem_cons.mpr ⟨isUnit_unit (by omega), ?_⟩⟩
    exact List.forall_mem_cons.mpr ⟨isUnit_unit (by omega), List.forall_mem_cons.mpr ⟨isUnit_unit (by omega), ih⟩⟩
  | case2 a b =>
    have ha := a.toNat_lt
    have hb := b.toNat_lt
    refine List.forall_mem_cons.mpr ⟨isUnit_unit (by omega), List.forall_mem_cons.mpr ⟨isUnit_unit (by omega), ?_⟩⟩
    exact List.forall_mem_singleton.mpr (isUnit_unit (by omega))
  | case3 a =>
    have ha := a.toNat_lt
    exact List.forall_mem_cons.mpr ⟨isUnit_unit (by omega), List.forall_mem_singleton.mpr (isUnit_unit (by omega))⟩
  | case4 => exact fun _ hu => absurd hu List.not_mem_nil

theorem encode_eq_nil {bytes : List UInt8} (h : encode bytes = []) : bytes = [] := by
  fun_cases encode bytes with
  | case4 => rfl
  | _ => simp [encode] at h

/-- A byte is the number its six-bit pieces make. -/
theorem toUInt8_of_eq {n : Nat} {a : UInt8} (h : n = a.toNat) : n.toUInt8 = a := by
  rw [h]
  exact UInt8.ofNat_toNat

theorem decode_encode (bytes : List UInt8) : decode (encode bytes) = bytes := by
  fun_induction encode bytes with
  | case1 a b c rest ih =>
    have ha := a.toNat_lt
    have hb := b.toNat_lt
    have hc := c.toNat_lt
    rw [decode, List.filterMap_cons_some (value_unit (by omega)), List.filterMap_cons_some (value_unit (by omega)),
      List.filterMap_cons_some (value_unit (by omega)), List.filterMap_cons_some (value_unit (by omega)), pack]
    change _ :: _ :: _ :: decode (encode rest) = _
    rw [ih, toUInt8_of_eq (by omega : _ = a.toNat), toUInt8_of_eq (by omega : _ = b.toNat),
      toUInt8_of_eq (by omega : _ = c.toNat)]
  | case2 a b =>
    have ha := a.toNat_lt
    have hb := b.toNat_lt
    rw [decode, List.filterMap_cons_some (value_unit (by omega)), List.filterMap_cons_some (value_unit (by omega)),
      List.filterMap_cons_some (value_unit (by omega)), List.filterMap_nil, pack, toUInt8_of_eq (by omega : _ = a.toNat),
      toUInt8_of_eq (by omega : _ = b.toNat)]
  | case3 a =>
    have ha := a.toNat_lt
    rw [decode, List.filterMap_cons_some (value_unit (by omega)), List.filterMap_cons_some (value_unit (by omega)),
      List.filterMap_nil, pack, toUInt8_of_eq (by omega : _ = a.toNat)]
  | case4 => rfl

end Base64Url
