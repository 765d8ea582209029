/-
Python's `float`.

A finite float is the rational number it stands for, so that zero has no sign.  Numbers
are rounded to the nearest float, and to the one with an even last bit between two.
-/

import Mathlib

namespace XFerry.Python

inductive PyFloat where
  | finite (value : ℚ)
  | infinite (negative : Bool)
  | nan
deriving DecidableEq

namespace PyFloat

def lastBit (value : ℚ) : ℤ := max (Int.log 2 |value| - 52) (-1074)

def roundHalfEven (value : ℚ) : ℤ :=
  let below := ⌊value⌋
  if value - below < 1 / 2 then below
  else if 1 / 2 < value - below then below + 1
  else if below % 2 = 0 then below
  else below + 1

def round (value : ℚ) : ℚ :=
  let unit : ℚ := 2 ^ lastBit value
  roundHalfEven (value / unit) * unit

/-- `float(text)` of the number that the text stands for. -/
@[irreducible] def ofRat (value : ℚ) : PyFloat :=
  let rounded := round value
  if |rounded| < 2 ^ 1024 then .finite rounded else .infinite (value < 0)

/-- `float(int)`, with `none` for `OverflowError`. -/
def ofInt (value : ℤ) : Option PyFloat :=
  match ofRat value with
  | .finite rounded => some (.finite rounded)
  | .infinite _ => none
  | .nan => none

/-! ### Numbers that are floats -/

theorem roundHalfEven_intCast (value : ℤ) : roundHalfEven value = value := by
  have exact_ : (value : ℚ) - value < 1 / 2 := by norm_num
  unfold roundHalfEven
  rw [Int.floor_intCast, if_pos exact_]

/-- A number of at most 53 bits at an exponent in range is a float. -/
theorem round_of_mantissa {mantissa exponent : ℤ} (small : |mantissa| < 2 ^ 53)
    (low : -1074 ≤ exponent) :
    round ((mantissa : ℚ) * 2 ^ exponent) = (mantissa : ℚ) * 2 ^ exponent := by
  by_cases zero : mantissa = 0
  · have nothing : roundHalfEven 0 = 0 := by
      simpa using roundHalfEven_intCast 0
    rw [zero, Int.cast_zero, zero_mul]
    unfold round
    simp only [zero_div, nothing, Int.cast_zero, zero_mul]
  · have twoPos : (0 : ℚ) < 2 := by norm_num
    have positive : 0 < |(mantissa : ℚ) * 2 ^ exponent| := by
      rw [abs_pos]
      exact mul_ne_zero (Int.cast_ne_zero.mpr zero) (zpow_pos twoPos _).ne'
    have below : |(mantissa : ℚ) * 2 ^ exponent| < ((2 : ℕ) : ℚ) ^ (53 + exponent) := by
      rw [Nat.cast_ofNat, abs_mul, abs_of_pos (zpow_pos twoPos exponent), zpow_add₀ twoPos.ne']
      refine mul_lt_mul_of_pos_right ?_ (zpow_pos twoPos exponent)
      exact_mod_cast small
    have log : Int.log 2 |(mantissa : ℚ) * 2 ^ exponent| < 53 + exponent :=
      (Int.lt_zpow_iff_log_lt one_lt_two positive).mp below
    have lastBit_le : lastBit ((mantissa : ℚ) * 2 ^ exponent) ≤ exponent := by
      unfold lastBit
      omega
    obtain ⟨shift, isShift⟩ := Int.eq_ofNat_of_zero_le (sub_nonneg.mpr lastBit_le)
    have whole : (mantissa : ℚ) * 2 ^ exponent / 2 ^ lastBit ((mantissa : ℚ) * 2 ^ exponent) =
        ((mantissa * 2 ^ shift : ℤ) : ℚ) := by
      rw [mul_div_assoc, ← zpow_sub₀ twoPos.ne', isShift]
      push_cast
      rw [zpow_natCast]
    unfold round
    simp only
    rw [whole, roundHalfEven_intCast, ← whole, div_mul_cancel₀]
    exact (zpow_pos twoPos _).ne'

theorem ofRat_of_mantissa {mantissa exponent : ℤ} (small : |mantissa| < 2 ^ 53)
    (low : -1074 ≤ exponent) (high : exponent ≤ 0) :
    ofRat ((mantissa : ℚ) * 2 ^ exponent) = .finite ((mantissa : ℚ) * 2 ^ exponent) := by
  have rounded := round_of_mantissa small low
  have bounded : |(mantissa : ℚ) * 2 ^ exponent| < 2 ^ 1024 := by
    have shrinks : (2 : ℚ) ^ exponent ≤ 1 := zpow_le_one_of_nonpos₀ (by norm_num) high
    have mantissaSmall : |(mantissa : ℚ)| < 2 ^ 53 := by exact_mod_cast small
    rw [abs_mul, abs_of_pos (zpow_pos (by norm_num : (0 : ℚ) < 2) exponent)]
    calc
      |(mantissa : ℚ)| * 2 ^ exponent ≤ |(mantissa : ℚ)| * 1 :=
        mul_le_mul_of_nonneg_left shrinks (abs_nonneg _)
      _ < 2 ^ 53 := by rwa [mul_one]
      _ < 2 ^ 1024 := pow_lt_pow_right₀ one_lt_two (by norm_num)
  unfold ofRat
  rw [rounded]
  exact if_pos bounded

theorem ofRat_intCast {value : ℤ} (small : |value| < 2 ^ 53) : ofRat value = .finite value := by
  have exact_ := ofRat_of_mantissa small (by norm_num) (le_refl 0)
  rwa [zpow_zero, mul_one] at exact_

variable {value : ℚ}

theorem le_roundHalfEven {bound : ℤ} (least : (bound : ℚ) ≤ value) :
    bound ≤ roundHalfEven value := by
  have below : bound ≤ ⌊value⌋ := Int.le_floor.mpr least
  unfold roundHalfEven
  dsimp only
  split_ifs <;> omega

theorem roundHalfEven_le {bound : ℤ} (greatest : value ≤ (bound : ℚ)) :
    roundHalfEven value ≤ bound := by
  have below : ⌊value⌋ ≤ bound := by
    exact Int.floor_le_floor greatest
  rcases below.eq_or_lt with whole | strict
  · have top : value - ⌊value⌋ < 1 / 2 := by
      rw [whole]
      linarith
    unfold roundHalfEven
    rw [if_pos top]
    exact below
  · unfold roundHalfEven
    dsimp only
    split_ifs <;> omega

theorem le_abs_roundHalfEven {bound : ℤ} (far : (bound : ℚ) ≤ |value|) :
    bound ≤ |roundHalfEven value| := by
  rcases le_abs'.mp far with low | high
  · have negative : roundHalfEven value ≤ -bound := roundHalfEven_le (by push_cast; exact low)
    exact (le_neg_of_le_neg negative).trans (neg_le_abs _)
  · exact (le_roundHalfEven high).trans (le_abs_self _)

theorem le_abs_round (large : 2 ^ 53 ≤ |value|) : 2 ^ 53 ≤ |round value| := by
  have twoPos : (0 : ℚ) < 2 := by norm_num
  have positive : 0 < |value| := lt_of_lt_of_le (by norm_num) large
  have log : 53 ≤ Int.log 2 |value| := by
    refine (Int.zpow_le_iff_le_log one_lt_two positive).mp ?_
    exact_mod_cast large
  have unit : lastBit value = Int.log 2 |value| - 52 := by
    unfold lastBit
    omega
  have power : (2 : ℚ) ^ Int.log 2 |value| = 2 ^ 52 * 2 ^ lastBit value := by
    rw [unit, zpow_sub₀ twoPos.ne', mul_div_assoc']
    exact (mul_div_cancel_left₀ _ (by norm_num)).symm
  have unitPos : (0 : ℚ) < 2 ^ lastBit value := zpow_pos twoPos _
  have lower : (2 : ℚ) ^ Int.log 2 |value| ≤ |value| := by
    have least := Int.zpow_log_le_self one_lt_two positive
    exact_mod_cast least
  have scaled : ((2 ^ 52 : ℤ) : ℚ) ≤ |value / 2 ^ lastBit value| := by
    rw [abs_div, abs_of_pos unitPos, le_div_iff₀ unitPos, Int.cast_pow, Int.cast_ofNat, ← power]
    exact lower
  have kept : ((2 ^ 52 : ℤ) : ℚ) ≤ ((|roundHalfEven (value / 2 ^ lastBit value)| : ℤ) : ℚ) :=
    Int.cast_le.mpr (le_abs_roundHalfEven scaled)
  unfold round
  rw [abs_mul, abs_of_pos unitPos, ← Int.cast_abs]
  calc
    (2 : ℚ) ^ 53 ≤ 2 ^ Int.log 2 |value| := by
      exact zpow_le_zpow_right₀ one_le_two log
    _ = 2 ^ 52 * 2 ^ lastBit value := power
    _ ≤ _ := by
      refine mul_le_mul_of_nonneg_right ?_ unitPos.le
      exact_mod_cast kept

/-- A number of at most 53 bits is the float of that integer alone. -/
theorem ofRat_intCast_eq_iff {value small : ℤ} (bounded : |small| < 2 ^ 53) :
    ofRat value = .finite small ↔ value = small := by
  constructor
  · intro converted
    by_cases valueSmall : |value| < 2 ^ 53
    · rw [ofRat_intCast valueSmall, finite.injEq] at converted
      exact_mod_cast converted
    have large : (2 : ℚ) ^ 53 ≤ |(value : ℚ)| := by
      exact_mod_cast not_lt.mp valueSmall
    have far := le_abs_round large
    unfold ofRat at converted
    dsimp only at converted
    split at converted
    · rw [finite.injEq] at converted
      rw [converted] at far
      exact absurd bounded (not_lt.mpr (by exact_mod_cast far))
    · cases converted
  · intro same
    rw [same, ofRat_intCast bounded]

end PyFloat

end XFerry.Python
