import Mathlib.Algebra.Order.Field.Rat
import Mathlib.Data.Nat.Digits.Defs
import Mathlib.Tactic.FieldSimp
import Mathlib.Tactic.Ring

/-! # Decimal texts

Digits with the place of the point are written as a plain number or with an exponent. A text is read
unit by unit, and reading gives the number that was written.
-/

namespace Decimal

/-! ## Digits -/

def digits (n : Nat) : List Nat := (Nat.digits 10 n).reverse

def number (ds : List Nat) : Nat := ds.foldl (fun n d => 10 * n + d) 0

theorem number_from (ds : List Nat) (n : Nat) :
    ds.foldl (fun n d => 10 * n + d) n = n * 10 ^ ds.length + number ds := by
  induction ds generalizing n with
  | nil => simp [number]
  | cons d ds ih =>
    rw [number, List.foldl_cons, List.foldl_cons, ih, ih (10 * 0 + d), List.length_cons, Nat.pow_succ]
    ring

theorem number_append (ds es : List Nat) : number (ds ++ es) = number ds * 10 ^ es.length + number es := by
  rw [number, List.foldl_append, number_from, ← number]

theorem number_cons (d : Nat) (ds : List Nat) : number (d :: ds) = d * 10 ^ ds.length + number ds := by
  rw [number, List.foldl_cons, number_from, Nat.mul_zero, Nat.zero_add]

theorem number_zeros (n : Nat) : number (List.replicate n 0) = 0 := by
  induction n with
  | zero => rfl
  | succ n ih =>
    rw [List.replicate_succ, number_cons, ih, Nat.zero_mul]

theorem number_digits (n : Nat) : number (digits n) = n := by
  rw [number, digits, List.foldl_reverse]
  refine Eq.trans ?_ (Nat.ofDigits_digits 10 n)
  rw [Nat.ofDigits_eq_foldr]
  simp only [Nat.cast_id, Nat.add_comm]

theorem digits_lt {n d : Nat} (h : d ∈ digits n) : d < 10 :=
  Nat.digits_lt_base (by decide) (List.mem_reverse.mp h)

/-! ## Reading -/

/-- What a prefix of a text says about its number. -/
structure Reading where
  negative : Bool
  mantissa : Nat
  pointed : Bool
  places : Nat
  exponential : Bool
  down : Bool
  exponent : Nat
  deriving DecidableEq, Repr

namespace Reading

def start : Reading := ⟨false, 0, false, 0, false, false, 0⟩

def digit (r : Reading) (d : Nat) : Reading :=
  if r.exponential then { r with exponent := 10 * r.exponent + d }
  else { r with mantissa := 10 * r.mantissa + d, places := r.places + if r.pointed then 1 else 0 }

/-- The signs are `-` and `+`, the point is `.` and the exponent begins with `e`. -/
def step (r : Reading) (u : UInt16) : Reading :=
  if u = 45 then if r.exponential then { r with down := true } else { r with negative := true }
  else if u = 43 then r
  else if u = 46 then { r with pointed := true }
  else if u = 101 then { r with exponential := true }
  else r.digit (u.toNat - 48)

def value (r : Reading) : ℚ :=
  (if r.negative then -1 else 1) * r.mantissa * 10 ^ ((if r.down then -(r.exponent : ℤ) else r.exponent) - r.places)

end Reading

def read (text : List UInt16) : ℚ := (text.foldl Reading.step .start).value

/-! ## Writing -/

def digitUnit (d : Nat) : UInt16 := (48 + d).toUInt16

def zeros (n : ℤ) : List Nat := List.replicate n.toNat 0

/-- The text of digits whose point stands behind the first `n` of them. -/
def write (ds : List Nat) (n : ℤ) : List UInt16 :=
  let k : ℤ := ds.length
  if k ≤ n ∧ n ≤ 21 then (ds ++ zeros (n - k)).map digitUnit
  else if 0 < n ∧ n ≤ 21 then (ds.take n.toNat).map digitUnit ++ 46 :: (ds.drop n.toNat).map digitUnit
  else if -6 < n ∧ n ≤ 0 then digitUnit 0 :: 46 :: (zeros (-n) ++ ds).map digitUnit
  else
    let exponent := (if 0 < n - 1 then 43 else 45) :: (digits (n - 1).natAbs).map digitUnit
    if ds.length = 1 then ds.map digitUnit ++ 101 :: exponent
    else (ds.take 1).map digitUnit ++ 46 :: (ds.drop 1).map digitUnit ++ 101 :: exponent

/-! ## Reading what is written -/

theorem digitUnit_toNat {d : Nat} (h : d < 10) : (digitUnit d).toNat = 48 + d := by
  rw [digitUnit]
  simp only [Nat.toUInt16, UInt16.toNat_ofNat']
  omega

theorem step_digit (r : Reading) {d : Nat} (h : d < 10) : r.step (digitUnit d) = r.digit d := by
  have hUnit := digitUnit_toNat h
  have hOther : ∀ u : UInt16, u.toNat < 48 ∨ 57 < u.toNat → digitUnit d ≠ u := by
    rintro u hu rfl
    omega
  rw [Reading.step, if_neg (hOther 45 (by decide)), if_neg (hOther 43 (by decide)), if_neg (hOther 46 (by decide)),
    if_neg (hOther 101 (by decide)), hUnit, Nat.add_sub_cancel_left]

theorem foldl_mantissa {ds : List Nat} (h : ∀ d ∈ ds, d < 10) {r : Reading} (hPlain : r.exponential = false) :
    (ds.map digitUnit).foldl Reading.step r = { r with
      mantissa := r.mantissa * 10 ^ ds.length + number ds
      places := r.places + if r.pointed then ds.length else 0 } := by
  induction ds generalizing r with
  | nil => simp [number]
  | cons d ds ih =>
    obtain ⟨hHead, hTail⟩ := List.forall_mem_cons.mp h
    have hDigit : r.digit d = { r with
        mantissa := 10 * r.mantissa + d, places := r.places + if r.pointed then 1 else 0 } := by
      rw [Reading.digit, hPlain, if_neg Bool.false_ne_true]
    rw [List.map_cons, List.foldl_cons, step_digit r hHead, hDigit, ih hTail (by exact hPlain), number_cons, List.length_cons]
    congr 1
    · rw [Nat.pow_succ]
      ring
    · dsimp only
      split
      · omega
      · rfl

theorem foldl_exponent {ds : List Nat} (h : ∀ d ∈ ds, d < 10) {r : Reading} (hExponential : r.exponential = true) :
    (ds.map digitUnit).foldl Reading.step r = { r with exponent := r.exponent * 10 ^ ds.length + number ds } := by
  induction ds generalizing r with
  | nil => simp [number]
  | cons d ds ih =>
    obtain ⟨hHead, hTail⟩ := List.forall_mem_cons.mp h
    have hDigit : r.digit d = { r with exponent := 10 * r.exponent + d } := by
      rw [Reading.digit, hExponential, if_pos rfl]
    rw [List.map_cons, List.foldl_cons, step_digit r hHead, hDigit, ih hTail (by exact hExponential), number_cons, List.length_cons]
    congr 1
    rw [Nat.pow_succ]
    ring

theorem zeros_lt (n : ℤ) : ∀ d ∈ zeros n, d < 10 := by
  intro d hd
  rw [(List.mem_replicate.mp hd).2]
  decide

/-- Plain digits. -/
theorem foldl_whole {ds : List Nat} (h : ∀ d ∈ ds, d < 10) : (ds.map digitUnit).foldl Reading.step .start =
    { Reading.start with mantissa := number ds } := by
  rw [foldl_mantissa h rfl]
  simp [Reading.start]

/-- Digits with a point between them. -/
theorem foldl_pointed {ds es : List Nat} (hds : ∀ d ∈ ds, d < 10) (hes : ∀ d ∈ es, d < 10) :
    (ds.map digitUnit ++ 46 :: es.map digitUnit).foldl Reading.step .start =
      { Reading.start with mantissa := number (ds ++ es), pointed := true, places := es.length } := by
  rw [List.foldl_append, foldl_whole hds, List.foldl_cons]
  have hPoint : Reading.step { Reading.start with mantissa := number ds } 46 =
      { Reading.start with mantissa := number ds, pointed := true } := rfl
  rw [hPoint, foldl_mantissa hes rfl, number_append]
  simp [Reading.start]

/-- An exponent behind a number. -/
theorem value_exponent {r : Reading} (hPlain : r.down = false) (hNone : r.exponent = 0) (n : ℤ) :
    (((101 : UInt16) :: (if 0 < n then 43 else 45) :: (digits n.natAbs).map digitUnit).foldl Reading.step r).value =
      r.value * 10 ^ n := by
  have hTen : (10 : ℚ) ≠ 0 := by decide
  have hSign : Reading.step (Reading.step r 101) (if 0 < n then 43 else 45) =
      { r with exponential := true, down := decide (¬0 < n) } := by
    split
    case isTrue hUp => simp [Reading.step, hUp, hPlain]
    case isFalse hDown => simp [Reading.step, hDown]
  rw [List.foldl_cons, List.foldl_cons, hSign, foldl_exponent (fun d hd => digits_lt hd) rfl, number_digits]
  have hExponent : (if decide (¬0 < n) = true then -((r.exponent * 10 ^ (digits n.natAbs).length + n.natAbs : Nat) : ℤ)
      else ((r.exponent * 10 ^ (digits n.natAbs).length + n.natAbs : Nat) : ℤ)) = n := by
    rw [hNone, Nat.zero_mul, Nat.zero_add]
    by_cases hUp : 0 < n
    · rw [decide_eq_false (not_not_intro hUp), if_neg Bool.false_ne_true]
      omega
    · rw [decide_eq_true hUp, if_pos rfl]
      omega
  simp only [Reading.value, hExponent]
  rw [hPlain, hNone, if_neg Bool.false_ne_true, mul_assoc _ _ ((10 : ℚ) ^ n), ← zpow_add₀ hTen]
  congr 2
  push_cast
  ring

theorem value_whole (m : Nat) : Reading.value { Reading.start with mantissa := m } = m := by
  simp [Reading.value, Reading.start]

theorem value_pointed (m places : Nat) :
    Reading.value { Reading.start with mantissa := m, pointed := true, places } = m * 10 ^ (-(places : ℤ)) := by
  simp [Reading.value, Reading.start]

theorem pow_toNat {n : ℤ} (h : 0 ≤ n) : (10 : ℚ) ^ n.toNat = 10 ^ n := by
  rw [← zpow_natCast, Int.toNat_of_nonneg h]

/-- Reading gives the number that was written. -/
theorem read_write {ds : List Nat} (h : ∀ d ∈ ds, d < 10) (hFull : ds ≠ []) (n : ℤ) :
    read (write ds n) = number ds * 10 ^ (n - ds.length) := by
  have hPart {es : List Nat} (hSub : ∀ d ∈ es, d ∈ ds) : ∀ d ∈ es, d < 10 := fun d hd => h d (hSub d hd)
  have hTake (k : Nat) : ∀ d ∈ ds.take k, d < 10 := hPart fun d => List.mem_of_mem_take
  have hDrop (k : Nat) : ∀ d ∈ ds.drop k, d < 10 := hPart fun d => List.mem_of_mem_drop
  have hPadded (k : ℤ) : ∀ d ∈ zeros k ++ ds, d < 10 := fun d hd => (List.mem_append.mp hd).elim (zeros_lt _ d) (h d)
  have hLength : 0 < ds.length := List.length_pos_of_ne_nil hFull
  unfold write
  dsimp only
  split
  case isTrue hWhole =>
    rw [read, foldl_whole fun d hd => (List.mem_append.mp hd).elim (h d) (zeros_lt _ d), value_whole, number_append, zeros,
      number_zeros, List.length_replicate]
    push_cast
    rw [pow_toNat (by omega), add_zero]
  case isFalse hLong =>
    split
    case isTrue hPointed =>
      rw [read, foldl_pointed (hTake _) (hDrop _), value_pointed, List.take_append_drop, List.length_drop]
      congr 2
      omega
    case isFalse =>
      split
      case isTrue hSmall =>
        have hZero : ∀ d ∈ [0], d < 10 := by decide
        have hText : digitUnit 0 :: 46 :: (zeros (-n) ++ ds).map digitUnit =
            [0].map digitUnit ++ 46 :: (zeros (-n) ++ ds).map digitUnit := rfl
        have hNumber : number ([0] ++ (zeros (-n) ++ ds)) = number ds := by
          rw [List.singleton_append, number_cons, number_append, zeros, number_zeros, Nat.zero_mul, Nat.zero_mul,
            Nat.zero_add, Nat.zero_add]
        rw [hText, read, foldl_pointed hZero (hPadded _), value_pointed, hNumber, List.length_append, zeros,
          List.length_replicate]
        congr 2
        omega
      case isFalse =>
        split
        case isTrue hOne =>
          rw [read, List.foldl_append, foldl_whole h, value_exponent rfl rfl, value_whole, hOne]
          rfl
        case isFalse =>
          rw [read, List.foldl_append, foldl_pointed (hTake 1) (hDrop 1), value_exponent rfl rfl, value_pointed,
            List.take_append_drop, List.length_drop, mul_assoc, ← zpow_add₀ (by decide)]
          congr 2
          omega

/-! ## The units of a text -/

def numeric (u : UInt16) : Bool := (48 ≤ u && u ≤ 57) || u = 43 || u = 45 || u = 46 || u = 101

theorem digitUnit_bounds {d : Nat} (h : d < 10) : 48 ≤ digitUnit d ∧ digitUnit d ≤ 57 := by
  have hUnit := digitUnit_toNat h
  constructor
  · exact UInt16.le_iff_toNat_le.mpr (by rw [hUnit]; exact Nat.le_add_right 48 d)
  · exact UInt16.le_iff_toNat_le.mpr (by rw [hUnit]; exact Nat.add_le_add_left (Nat.le_of_lt_succ h) 48)

theorem numeric_digit {d : Nat} (h : d < 10) : numeric (digitUnit d) = true := by
  obtain ⟨hLow, hHigh⟩ := digitUnit_bounds h
  simp [numeric, hLow, hHigh]

theorem numeric_digits {ds : List Nat} (h : ∀ d ∈ ds, d < 10) : ∀ u ∈ ds.map digitUnit, numeric u = true := by
  intro u hu
  obtain ⟨d, hd, rfl⟩ := List.mem_map.mp hu
  exact numeric_digit (h d hd)

theorem numeric_append {text rest : List UInt16} (h : ∀ u ∈ text, numeric u = true) (hRest : ∀ u ∈ rest, numeric u = true) :
    ∀ u ∈ text ++ rest, numeric u = true := by
  intro u hu
  exact (List.mem_append.mp hu).elim (h u) (hRest u)

theorem numeric_cons {u : UInt16} {text : List UInt16} (h : numeric u = true) (hText : ∀ v ∈ text, numeric v = true) :
    ∀ v ∈ u :: text, numeric v = true :=
  List.forall_mem_cons.mpr ⟨h, hText⟩

theorem numeric_write {ds : List Nat} (h : ∀ d ∈ ds, d < 10) (n : ℤ) : ∀ u ∈ write ds n, numeric u = true := by
  have hTake (k : Nat) : ∀ d ∈ ds.take k, d < 10 := fun d hd => h d (List.mem_of_mem_take hd)
  have hDrop (k : Nat) : ∀ d ∈ ds.drop k, d < 10 := fun d hd => h d (List.mem_of_mem_drop hd)
  have hExponent : ∀ u ∈ (101 : UInt16) :: (if 0 < n - 1 then 43 else 45) :: (digits (n - 1).natAbs).map digitUnit,
      numeric u = true := by
    refine numeric_cons rfl (numeric_cons ?_ (numeric_digits fun d hd => digits_lt hd))
    split <;> rfl
  unfold write
  dsimp only
  split
  case isTrue => exact numeric_digits fun d hd => (List.mem_append.mp hd).elim (h d) (zeros_lt _ d)
  case isFalse =>
    split
    case isTrue => exact numeric_append (numeric_digits (hTake _)) (numeric_cons rfl (numeric_digits (hDrop _)))
    case isFalse =>
      split
      case isTrue =>
        refine numeric_cons rfl (numeric_cons rfl (numeric_digits ?_))
        exact fun d hd => (List.mem_append.mp hd).elim (zeros_lt _ d) (h d)
      case isFalse =>
        split
        case isTrue => exact numeric_append (numeric_digits h) hExponent
        case isFalse =>
          refine numeric_append (numeric_append (numeric_digits (hTake 1)) ?_) hExponent
          exact numeric_cons rfl (numeric_digits (hDrop 1))

/-- A text begins with a digit. -/
theorem write_head {ds : List Nat} (h : ∀ d ∈ ds, d < 10) (hFull : ds ≠ []) (n : ℤ) :
    ∃ d < 10, ∃ rest, write ds n = digitUnit d :: rest := by
  cases ds with
  | nil => exact absurd rfl hFull
  | cons d ds =>
    have hd : d < 10 := h d List.mem_cons_self
    unfold write
    dsimp only
    split
    case isTrue => exact ⟨d, hd, _, rfl⟩
    case isFalse =>
      split
      case isTrue hPointed =>
        obtain ⟨k, hk⟩ := Nat.exists_eq_succ_of_ne_zero (show n.toNat ≠ 0 by omega)
        exact ⟨d, hd, _, by rw [hk]; rfl⟩
      case isFalse =>
        split
        case isTrue => exact ⟨0, by decide, _, rfl⟩
        case isFalse =>
          split
          case isTrue => exact ⟨d, hd, _, rfl⟩
          case isFalse => exact ⟨d, hd, _, rfl⟩

end Decimal
