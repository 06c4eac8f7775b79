import GreenPms.Foundation.Text
import GreenPms.Library.Decimal
import Mathlib.Algebra.Order.Archimedean.Basic
import Mathlib.Data.Int.Log
import Mathlib.Data.Nat.Digits.Lemmas
import Mathlib.Data.Rat.Floor

/-! # Finite numbers of the JavaScript runtime

A finite number is a double, held as the rational that it is: `-0` and `0` are one value, as they are
for `===`. Its text is that of `Number::toString` in base ten, with as few digits as tell it apart.
-/

namespace GreenPms

/-- The nearest integer, and of two the even one. -/
def roundEven (q : ℚ) : ℤ :=
  let k := ⌊q⌋
  if q - k < 1 / 2 then k else if 1 / 2 < q - k then k + 1 else k + k % 2

/-- The number value for a rational. Beyond the largest double it is no double. -/
def nearest (q : ℚ) : ℚ :=
  let e := max (-1074) (Int.log 2 |q| - 52)
  roundEven (q / 2 ^ e) * 2 ^ e

@[ext] structure JsNumber where
  value : ℚ
  double : ∃ m e : ℤ, |m| < 2 ^ 53 ∧ -1074 ≤ e ∧ e ≤ 971 ∧ value = m * 2 ^ e

instance : Neg JsNumber where
  neg x := ⟨-x.value, by
    obtain ⟨m, e, hSize, hLow, hHigh, hValue⟩ := x.double
    exact ⟨-m, e, by rwa [abs_neg], hLow, hHigh, by rw [hValue, Int.cast_neg, neg_mul]⟩⟩

/-- `s` and `n` of `Number::toString` with `k` digits, where there are such: the digits closest to
the number come first, and of two as close the even ones. -/
def shortestWith (x : ℚ) (n : ℤ) (k : Nat) : Option (Nat × ℤ) :=
  let place : ℚ := 10 ^ (n - k)
  let s := ⌊x / place⌋₊
  let below := x - s * place
  let above := (s + 1) * place - x
  let near := if below < above ∨ below = above ∧ s % 2 = 0 then [s, s + 1] else [s + 1, s]
  (near.find? fun (s : Nat) => nearest (s * place) = x).map fun s => if s = 10 ^ k then (10 ^ (k - 1), n + 1) else (s, n)

def shortest (x : ℚ) : Nat × ℤ :=
  let n := Int.log 10 x + 1
  ((List.range (n + 1074).toNat).findSome? fun k => shortestWith x n (k + 1)).getD (0, 0)

def positiveText (x : ℚ) : JsString :=
  let (s, n) := shortest x
  Decimal.write (Decimal.digits s) n

/-- `Number::toString`. -/
def numberText (x : JsNumber) : JsString :=
  if x.value = 0 then [48] else if x.value < 0 then 45 :: positiveText (-x.value) else positiveText x.value

/-! ## Doubles are their own nearest -/

theorem roundEven_intCast (k : ℤ) : roundEven k = k := by
  rw [roundEven, Int.floor_intCast, sub_self, if_pos one_half_pos]

theorem two_ne_zero_rat : (2 : ℚ) ≠ 0 := by decide

/-- The place of the last digit of a double is at least the one that it is rounded to. -/
theorem nearest_exponent {m e : ℤ} (hSize : |m| < 2 ^ 53) (hLow : -1074 ≤ e) (hFull : m ≠ 0) :
    max (-1074) (Int.log 2 |(m * 2 ^ e : ℚ)| - 52) ≤ e := by
  have hPower : (0 : ℚ) < 2 ^ e := zpow_pos (by decide) e
  have hMantissa : (0 : ℚ) < |(m : ℚ)| := abs_pos.mpr (Int.cast_ne_zero.mpr hFull)
  have hBelow : |(m * 2 ^ e : ℚ)| < (2 : Nat) ^ (53 + e) := by
    rw [abs_mul, abs_of_pos hPower, Nat.cast_ofNat, zpow_add₀ two_ne_zero_rat]
    refine mul_lt_mul_of_pos_right ?_ hPower
    exact_mod_cast hSize
  have hLog : Int.log 2 |(m * 2 ^ e : ℚ)| < 53 + e := by
    refine (Int.lt_zpow_iff_log_lt (by decide) ?_).mp hBelow
    rw [abs_mul, abs_of_pos hPower]
    exact mul_pos hMantissa hPower
  exact max_le hLow (by omega)

theorem nearest_value (x : JsNumber) : nearest x.value = x.value := by
  obtain ⟨m, e, hSize, hLow, -, hValue⟩ := x.double
  by_cases hZero : m = 0
  · rw [hValue, hZero, Int.cast_zero, zero_mul, nearest, zero_div]
    rw [show roundEven 0 = 0 from roundEven_intCast 0, Int.cast_zero, zero_mul]
  · have hPlace := nearest_exponent hSize hLow hZero
    rw [hValue, nearest]
    generalize max (-1074) (Int.log 2 |(m * 2 ^ e : ℚ)| - 52) = place at hPlace
    obtain ⟨j, rfl⟩ := Int.le.dest hPlace
    have hWhole : (m * 2 ^ (place + j) : ℚ) / 2 ^ place = ((m * 2 ^ j : ℤ) : ℚ) := by
      rw [zpow_add₀ two_ne_zero_rat, ← mul_assoc, mul_right_comm, mul_div_assoc,
        div_self (zpow_ne_zero place two_ne_zero_rat), mul_one, zpow_natCast]
      push_cast
      rfl
    rw [hWhole, roundEven_intCast, zpow_add₀ two_ne_zero_rat, zpow_natCast]
    push_cast
    ring

/-! ## The shortest digits -/

theorem ten_ne_zero_rat : (10 : ℚ) ≠ 0 := by decide

/-- The digits in front of a place, if the first of `k + 1` digits stands at the place of the logarithm. -/
theorem floor_bounds {x : ℚ} (h : 0 < x) (k : Nat) :
    10 ^ k ≤ ⌊x / 10 ^ (Int.log 10 x + 1 - (k + 1 : Nat))⌋₊ ∧ ⌊x / 10 ^ (Int.log 10 x + 1 - (k + 1 : Nat))⌋₊ < 10 ^ (k + 1) := by
  have hLow : (10 : ℚ) ^ Int.log 10 x ≤ x := Int.zpow_log_le_self (by decide) h
  have hHigh : x < (10 : ℚ) ^ (Int.log 10 x + 1) := Int.lt_zpow_succ_log_self (by decide) x
  generalize Int.log 10 x = n at hLow hHigh
  have hPlace : (0 : ℚ) < 10 ^ (n + 1 - (k + 1 : Nat)) := zpow_pos (by decide) _
  constructor
  · refine Nat.le_floor ((le_div_iff₀ hPlace).mpr ?_)
    rw [Nat.cast_pow, Nat.cast_ofNat, ← zpow_natCast, ← zpow_add₀ ten_ne_zero_rat]
    rwa [show (k : ℤ) + (n + 1 - (k + 1 : Nat)) = n by omega]
  · refine (Nat.floor_lt (div_nonneg h.le hPlace.le)).mpr ((div_lt_iff₀ hPlace).mpr ?_)
    rw [Nat.cast_pow, Nat.cast_ofNat, ← zpow_natCast, ← zpow_add₀ ten_ne_zero_rat]
    rwa [show ((k + 1 : Nat) : ℤ) + (n + 1 - (k + 1 : Nat)) = n + 1 by omega]

theorem digits_length {s k : Nat} (hLow : 10 ^ k ≤ s) (hHigh : s < 10 ^ (k + 1)) : (Decimal.digits s).length = k + 1 := by
  have hFull : s ≠ 0 := by
    have := Nat.pow_pos (n := k) (show 0 < 10 by decide)
    omega
  rw [Decimal.digits, List.length_reverse, Nat.length_digits 10 s (by decide) hFull, Nat.log_eq_of_pow_le_of_lt_pow hLow hHigh]

/-- What a search with `k + 1` digits finds has that many and is rounded to the number. -/
theorem shortestWith_spec {x : ℚ} (h : 0 < x) {k : Nat} {r : Nat × ℤ}
    (hFound : shortestWith x (Int.log 10 x + 1) (k + 1) = some r) :
    (Decimal.digits r.1).length = k + 1 ∧ nearest (r.1 * 10 ^ (r.2 - (k + 1 : Nat))) = x := by
  obtain ⟨hLow, hHigh⟩ := floor_bounds h k
  rw [shortestWith, Option.map_eq_some_iff] at hFound
  obtain ⟨s, hFind, hResult⟩ := hFound
  have hNearest : nearest (s * 10 ^ (Int.log 10 x + 1 - (k + 1 : Nat))) = x := by
    simpa only [decide_eq_true_eq] using List.find?_some hFind
  have hNear := List.mem_of_find?_eq_some hFind
  generalize ⌊x / 10 ^ (Int.log 10 x + 1 - (k + 1 : Nat))⌋₊ = floor at hLow hHigh hNear
  have hNext : s = floor ∨ s = floor + 1 := by
    split at hNear
    · simpa using hNear
    · simpa [or_comm] using hNear
  split at hResult
  case isTrue hCarry =>
    subst hResult
    refine ⟨digits_length (by rw [Nat.add_sub_cancel]) ?_, ?_⟩
    · exact Nat.pow_lt_pow_right (by decide) (Nat.lt_succ_self k)
    · have hSame : ((10 ^ k : Nat) : ℚ) * 10 ^ (Int.log 10 x + 1 + 1 - (k + 1 : Nat)) =
          (10 ^ (k + 1) : Nat) * 10 ^ (Int.log 10 x + 1 - (k + 1 : Nat)) := by
        rw [Nat.cast_pow, Nat.cast_pow, Nat.cast_ofNat, ← zpow_natCast, ← zpow_natCast, ← zpow_add₀ ten_ne_zero_rat,
          ← zpow_add₀ ten_ne_zero_rat]
        congr 1
        omega
      rw [Nat.add_sub_cancel, hSame, ← hCarry, hNearest]
  case isFalse hPlain =>
    subst hResult
    exact ⟨digits_length (by omega) (by omega), hNearest⟩

theorem shortestWith_exact {x : ℚ} {n : ℤ} {k s : Nat} (h : x = s * 10 ^ (n - k)) (hNearest : nearest x = x) :
    shortestWith x n k ≠ none := by
  have hFloor : ⌊x / 10 ^ (n - k)⌋₊ = s := by
    rw [h, mul_div_assoc, div_self (zpow_ne_zero _ ten_ne_zero_rat), mul_one, Nat.floor_natCast]
  rw [shortestWith, Ne, Option.map_eq_none_iff, List.find?_eq_none, hFloor]
  intro hNone
  refine hNone s ?_ (decide_eq_true (by rw [← h, hNearest]))
  split
  · exact List.mem_cons_self
  · exact List.mem_cons_of_mem _ List.mem_cons_self

theorem decimal_of_binary {m : Nat} (h : 0 < m) (j places : Nat) :
    ∃ s : Nat, 0 < s ∧ (m * 2 ^ (-(places : ℤ) + j) : ℚ) = s * 10 ^ (-(places : ℤ)) := by
  refine ⟨m * 2 ^ j * 5 ^ places, by positivity, ?_⟩
  have hTen : (10 : ℚ) ^ (-(places : ℤ)) = 2 ^ (-(places : ℤ)) * 5 ^ (-(places : ℤ)) := by
    rw [← mul_zpow]
    norm_num
  have hUnit : (5 : ℚ) ^ places * 5 ^ (-(places : ℤ)) = 1 := by
    rw [← zpow_natCast, ← zpow_add₀ (by decide), add_neg_cancel, zpow_zero]
  push_cast
  rw [hTen, zpow_add₀ two_ne_zero_rat, zpow_natCast]
  calc (m * (2 ^ (-(places : ℤ)) * 2 ^ j) : ℚ)
      = m * (2 ^ (-(places : ℤ)) * 2 ^ j) * (5 ^ places * 5 ^ (-(places : ℤ))) := by rw [hUnit, mul_one]
    _ = m * 2 ^ j * 5 ^ places * (2 ^ (-(places : ℤ)) * 5 ^ (-(places : ℤ))) := by ac_rfl

theorem JsNumber.decimal (x : JsNumber) (h : 0 < x.value) : ∃ s : Nat, 0 < s ∧ x.value = s * 10 ^ (-(1074 : Nat) : ℤ) := by
  obtain ⟨m, e, -, hLow, -, hValue⟩ := x.double
  obtain ⟨j, rfl⟩ := Int.le.dest hLow
  have hMantissa : 0 < m := by
    rw [hValue] at h
    exact_mod_cast pos_of_mul_pos_left h (zpow_nonneg (show (0 : ℚ) ≤ 2 by decide) _)
  obtain ⟨n, rfl⟩ := Int.eq_ofNat_of_zero_le hMantissa.le
  obtain ⟨s, hs, hDecimal⟩ := decimal_of_binary (Int.natCast_pos.mp hMantissa) j 1074
  exact ⟨s, hs, hValue.trans hDecimal⟩

theorem shortestWith_complete (x : JsNumber) (h : 0 < x.value) :
    ∃ k ∈ List.range (Int.log 10 x.value + 1 + 1074).toNat, shortestWith x.value (Int.log 10 x.value + 1) (k + 1) ≠ none := by
  obtain ⟨s, hFull, hDecimal⟩ := x.decimal h
  have hLog : -1074 ≤ Int.log 10 x.value := by
    refine (Int.zpow_le_iff_le_log (by decide) h).mp ?_
    rw [hDecimal]
    refine le_mul_of_one_le_left (zpow_nonneg (by decide) _) ?_
    exact_mod_cast hFull
  refine ⟨(Int.log 10 x.value + 1074).toNat, List.mem_range.mpr (by omega), ?_⟩
  have hPlace : Int.log 10 x.value + 1 - ((Int.log 10 x.value + 1074).toNat + 1 : Nat) = -(1074 : Nat) := by omega
  rw [← hPlace] at hDecimal
  exact shortestWith_exact hDecimal (nearest_value x)

theorem shortest_spec (x : JsNumber) (h : 0 < x.value) : (Decimal.digits (shortest x.value).1) ≠ [] ∧
    nearest ((shortest x.value).1 * 10 ^ ((shortest x.value).2 - (Decimal.digits (shortest x.value).1).length)) = x.value := by
  obtain ⟨k, hMem, hSome⟩ := shortestWith_complete x h
  obtain ⟨r, hFound⟩ : ∃ r, ((List.range (Int.log 10 x.value + 1 + 1074).toNat).findSome? fun k =>
      shortestWith x.value (Int.log 10 x.value + 1) (k + 1)) = some r := by
    refine Option.ne_none_iff_exists'.mp fun hNone => hSome ?_
    exact List.findSome?_eq_none_iff.mp hNone k hMem
  obtain ⟨j, -, hWith⟩ := List.exists_of_findSome?_eq_some hFound
  have hShortest : shortest x.value = r := by
    rw [shortest, hFound]
    rfl
  obtain ⟨hLength, hNearest⟩ := shortestWith_spec h hWith
  rw [hShortest, hLength]
  refine ⟨fun hNil => ?_, hNearest⟩
  rw [hNil] at hLength
  exact Nat.succ_ne_zero j hLength.symm

/-! ## The text of a number -/

theorem nearest_read (x : JsNumber) (h : 0 < x.value) : nearest (Decimal.read (positiveText x.value)) = x.value := by
  obtain ⟨hFull, hNearest⟩ := shortest_spec x h
  rw [positiveText, Decimal.read_write (fun _ hd => Decimal.digits_lt hd) hFull, Decimal.number_digits]
  exact hNearest

theorem positiveText_head (x : JsNumber) (h : 0 < x.value) :
    ∃ d < 10, ∃ rest, positiveText x.value = Decimal.digitUnit d :: rest :=
  Decimal.write_head (fun _ hd => Decimal.digits_lt hd) (shortest_spec x h).1 _

theorem numeric_positiveText (x : ℚ) : ∀ u ∈ positiveText x, Decimal.numeric u = true :=
  Decimal.numeric_write (fun _ hd => Decimal.digits_lt hd) _

theorem numberText_cases (x : JsNumber) :
    (x.value = 0 ∧ numberText x = [48]) ∨ (x.value < 0 ∧ numberText x = 45 :: positiveText (-x).value) ∨
      (0 < x.value ∧ numberText x = positiveText x.value) := by
  unfold numberText
  split
  case isTrue hZero => exact .inl ⟨hZero, rfl⟩
  case isFalse hOther =>
    split
    case isTrue hNegative => exact .inr (.inl ⟨hNegative, rfl⟩)
    case isFalse hPositive => exact .inr (.inr ⟨lt_of_le_of_ne (not_lt.mp hPositive) (Ne.symm hOther), rfl⟩)

theorem neg_positive {x : JsNumber} (h : x.value < 0) : 0 < (-x).value := neg_pos.mpr h

theorem numberText_head (x : JsNumber) : ∃ u rest, numberText x = u :: rest ∧ (u = 45 ∨ 48 ≤ u ∧ u ≤ 57) := by
  rcases numberText_cases x with ⟨-, hText⟩ | ⟨-, hText⟩ | ⟨h, hText⟩
  · exact ⟨48, [], hText, by decide⟩
  · exact ⟨45, _, hText, .inl rfl⟩
  · obtain ⟨d, hd, rest, hHead⟩ := positiveText_head x h
    exact ⟨_, rest, hText.trans hHead, .inr (Decimal.digitUnit_bounds hd)⟩

theorem numeric_numberText (x : JsNumber) : ∀ u ∈ numberText x, Decimal.numeric u = true := by
  rcases numberText_cases x with ⟨-, hText⟩ | ⟨-, hText⟩ | ⟨-, hText⟩
  · rw [hText]
    exact List.forall_mem_singleton.mpr rfl
  · rw [hText]
    exact Decimal.numeric_cons rfl (numeric_positiveText _)
  · rw [hText]
    exact numeric_positiveText _

theorem positiveText_injective {x y : JsNumber} (hx : 0 < x.value) (hy : 0 < y.value)
    (h : positiveText x.value = positiveText y.value) : x = y := by
  have hValue : x.value = y.value := by
    rw [← nearest_read x hx, h, nearest_read y hy]
  exact JsNumber.ext hValue

theorem positiveText_ne_zero {x : JsNumber} (h : 0 < x.value) : positiveText x.value ≠ [48] := by
  intro hZero
  have hNearest := nearest_read x h
  rw [hZero, show Decimal.read [48] = 0 by decide +kernel] at hNearest
  rw [nearest, zero_div, show roundEven 0 = 0 from roundEven_intCast 0, Int.cast_zero, zero_mul] at hNearest
  exact h.ne hNearest

theorem positiveText_ne_negative {x : JsNumber} (h : 0 < x.value) (text : JsString) : positiveText x.value ≠ 45 :: text := by
  intro hSign
  obtain ⟨d, hd, rest, hText⟩ := positiveText_head x h
  have hUnit := (Decimal.digitUnit_bounds hd).1
  rw [(List.cons.inj (hText.symm.trans hSign)).1] at hUnit
  exact absurd hUnit (by decide)

theorem numberText_injective : Function.Injective numberText := by
  intro x y hSame
  rcases numberText_cases x with ⟨hx, hTextX⟩ | ⟨hx, hTextX⟩ | ⟨hx, hTextX⟩ <;>
    rcases numberText_cases y with ⟨hy, hTextY⟩ | ⟨hy, hTextY⟩ | ⟨hy, hTextY⟩ <;>
    rw [hTextX, hTextY] at hSame
  · exact JsNumber.ext (hx.trans hy.symm)
  · exact absurd (List.cons.inj hSame).1 (by decide)
  · exact absurd hSame.symm (positiveText_ne_zero hy)
  · exact absurd (List.cons.inj hSame).1 (by decide)
  · have hNeg := positiveText_injective (neg_positive hx) (neg_positive hy) (List.cons.inj hSame).2
    exact JsNumber.ext (neg_inj.mp (congrArg JsNumber.value hNeg))
  · exact absurd hSame.symm (positiveText_ne_negative hy _)
  · exact absurd hSame (positiveText_ne_zero hx)
  · exact absurd hSame (positiveText_ne_negative hx _)
  · exact positiveText_injective hx hy hSame

end GreenPms
