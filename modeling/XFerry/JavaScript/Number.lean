/-
Numbers of JavaScript and their bytes in a `DataView`.

A number is a float without the sign of its zero.  Division by zero is that by a positive
zero.
-/

import XFerry.Encoding.Packing
import XFerry.Python.Binary64

namespace XFerry.JavaScript

abbrev Number := Python.PyFloat

namespace Number

open Python.PyFloat (ofRat ofRat_of_mantissa ofRat_intCast_eq_iff)

def ofInt (value : ℤ) : Number := ofRat value

def isInteger : Number → Bool
  | .finite value => value.den = 1
  | .infinite _ => false
  | .nan => false

def isSafeInteger : Number → Bool
  | .finite value => value.den = 1 && |value| ≤ 2 ^ 53 - 1
  | .infinite _ => false
  | .nan => false

/-- `left < right`. -/
def less : Number → Number → Bool
  | .finite left, .finite right => left < right
  | .infinite negative, .finite _ => negative
  | .finite _, .infinite negative => !negative
  | .infinite left, .infinite right => left && !right
  | .nan, _ => false
  | _, .nan => false

/-- `left === right`. -/
def strictEquals (left right : Number) : Bool := left = right && left ≠ .nan

/-- `left >= right`. -/
def atLeast (left right : Number) : Bool := less right left || strictEquals left right

def divide : Number → Number → Number
  | .finite left, .finite right =>
    if right = 0 then if left = 0 then .nan else .infinite (left < 0) else ofRat (left / right)
  | .finite _, .infinite _ => .finite 0
  | .infinite negative, .finite right => .infinite (xor negative (right < 0))
  | .infinite _, .infinite _ => .nan
  | .nan, _ => .nan
  | _, .nan => .nan

def multiply : Number → Number → Number
  | .finite left, .finite right => ofRat (left * right)
  | .finite left, .infinite negative =>
    if left = 0 then .nan else .infinite (xor negative (left < 0))
  | .infinite negative, .finite right =>
    if right = 0 then .nan else .infinite (xor negative (right < 0))
  | .infinite left, .infinite right => .infinite (xor left right)
  | .nan, _ => .nan
  | _, .nan => .nan

def add : Number → Number → Number
  | .finite left, .finite right => ofRat (left + right)
  | .finite _, .infinite negative => .infinite negative
  | .infinite negative, .finite _ => .infinite negative
  | .infinite left, .infinite right => if left = right then .infinite left else .nan
  | .nan, _ => .nan
  | _, .nan => .nan

def subtract : Number → Number → Number
  | .finite left, .finite right => ofRat (left - right)
  | .finite _, .infinite negative => .infinite !negative
  | .infinite negative, .finite _ => .infinite negative
  | .infinite left, .infinite right => if left = right then .nan else .infinite left
  | .nan, _ => .nan
  | _, .nan => .nan

def truncate (value : ℚ) : ℤ := if value < 0 then ⌈value⌉ else ⌊value⌋

/-- `left % right`. -/
def remainder : Number → Number → Number
  | .finite left, .finite right =>
    if right = 0 then .nan else .finite (left - right * truncate (left / right))
  | .finite left, .infinite _ => .finite left
  | .infinite _, _ => .nan
  | .nan, _ => .nan
  | _, .nan => .nan

def floor : Number → Number
  | .finite value => .finite ⌊value⌋
  | .infinite negative => .infinite negative
  | .nan => .nan

def ceil : Number → Number
  | .finite value => .finite ⌈value⌉
  | .infinite negative => .infinite negative
  | .nan => .nan

def min (left right : Number) : Number :=
  if left = .nan ∨ right = .nan then .nan else if less left right then left else right

def toUint32 : Number → Nat
  | .finite value => (truncate value % 2 ^ 32).toNat
  | .infinite _ => 0
  | .nan => 0

/-- `DataView.setUint32`, in big-endian order. -/
def setUint32 (value : Number) : List UInt8 := Packing.bigEndian 4 (toUint32 value)

def decimal : Number → String
  | .finite value => toString ⌊value⌋
  | .infinite negative => if negative then "-Infinity" else "Infinity"
  | .nan => "NaN"

theorem ofInt_eq_iff {value : ℤ} {small : Nat} (bounded : small < 2 ^ 53) :
    ofInt value = .finite small ↔ value = small := by
  have fits : |(small : ℤ)| < 2 ^ 53 := by
    exact_mod_cast bounded
  have same : ofInt value = .finite ((small : ℤ) : ℚ) ↔ value = small := ofRat_intCast_eq_iff fits
  rwa [Int.cast_natCast] at same

variable {value : Nat}

theorem ofInt_natCast (small : value < 2 ^ 53) : ofInt value = .finite (value : ℚ) :=
  (ofInt_eq_iff small).mpr rfl

theorem isInteger_natCast (value : Nat) : isInteger (.finite (value : ℚ)) = true := by
  simp [isInteger]

theorem exists_of_isInteger {value : Number} (whole : isInteger value = true) :
    ∃ integer : ℤ, value = .finite integer := by
  cases value with
  | finite value =>
    refine ⟨value.num, ?_⟩
    have unit : value.den = 1 := of_decide_eq_true whole
    rw [(Rat.den_eq_one_iff value).mp unit]
  | infinite | nan => cases whole

theorem isSafeInteger_natCast (small : value < 2 ^ 53) :
    isSafeInteger (.finite (value : ℚ)) = true := by
  have bounded : (value : ℚ) ≤ 2 ^ 53 - 1 := by
    have next : ((value + 1 : Nat) : ℚ) ≤ ((2 ^ 53 : Nat) : ℚ) := Nat.cast_le.mpr small
    push_cast at next
    linarith
  simp only [isSafeInteger, Rat.den_natCast, decide_true, Bool.true_and, decide_eq_true_eq,
    Nat.abs_cast]
  exact bounded

theorem less_natCast (left right : Nat) :
    less (.finite (left : ℚ)) (.finite (right : ℚ)) = decide (left < right) := by
  simp [less]

theorem less_zero_natCast (value : Nat) : less (.finite (value : ℚ)) (.finite 0) = false := by
  simp [less]

theorem strictEquals_natCast (left right : Nat) :
    strictEquals (.finite (left : ℚ)) (.finite (right : ℚ)) = decide (left = right) := by
  simp [strictEquals]

theorem strictEquals_ofInt {value : ℤ} {small : Nat} (bounded : small < 2 ^ 53) :
    strictEquals (ofInt value) (.finite (small : ℚ)) = decide (value = small) := by
  have same : ofInt value = .finite (small : ℚ) ↔ value = small := ofInt_eq_iff bounded
  by_cases equal : value = small
  · rw [same.mpr equal]
    simp [strictEquals, equal]
  have different : ofInt value ≠ .finite (small : ℚ) := fun converted =>
    equal (same.mp converted)
  simp [strictEquals, different, equal]

theorem atLeast_natCast (left right : Nat) :
    atLeast (.finite (left : ℚ)) (.finite (right : ℚ)) = decide (right ≤ left) := by
  rw [atLeast, less_natCast, strictEquals_natCast, Bool.eq_iff_iff]
  simp only [Bool.or_eq_true, decide_eq_true_eq]
  omega

theorem isInteger_nonneg_iff {value : Number} :
    (isInteger value = true ∧ less value (.finite 0) = false) ↔
      ∃ natural : Nat, value = .finite (natural : ℚ) := by
  constructor
  · rintro ⟨whole, low⟩
    obtain ⟨integer, rfl⟩ := exists_of_isInteger whole
    have nonneg : 0 ≤ integer := by simpa [less] using low
    obtain ⟨natural, rfl⟩ := Int.eq_ofNat_of_zero_le nonneg
    exact ⟨natural, by rw [Int.cast_natCast]⟩
  · rintro ⟨natural, rfl⟩
    exact ⟨isInteger_natCast natural, less_zero_natCast natural⟩

variable {shift : Nat}

theorem divide_two_pow (small : value < 2 ^ 53) (short : shift ≤ 1074) :
    divide (.finite (value : ℚ)) (.finite ((2 ^ shift : Nat) : ℚ)) =
      .finite ((value : ℚ) / 2 ^ shift) := by
  have bounded : |(value : ℤ)| < 2 ^ 53 := by
    exact_mod_cast small
  have low : -1074 ≤ -(shift : ℤ) := by omega
  have converted := ofRat_of_mantissa bounded low (by omega)
  have nonzero : ((2 ^ shift : Nat) : ℚ) ≠ 0 := by positivity
  rw [Int.cast_natCast, zpow_neg, zpow_natCast, ← div_eq_mul_inv] at converted
  rw [divide, if_neg nonzero, Nat.cast_pow, Nat.cast_ofNat, converted]

theorem floor_divide (small : value < 2 ^ 53) (short : shift ≤ 1074) :
    floor (divide (.finite (value : ℚ)) (.finite ((2 ^ shift : Nat) : ℚ))) =
      .finite ((value / 2 ^ shift : Nat) : ℚ) := by
  rw [divide_two_pow small short, floor]
  have quotient : ⌊(value : ℚ) / 2 ^ shift⌋ = ((value / 2 ^ shift : Nat) : ℤ) := by
    have whole := Rat.floor_natCast_div_natCast value (2 ^ shift)
    rw [Nat.cast_pow, Nat.cast_ofNat] at whole
    norm_cast
  rw [quotient, Int.cast_natCast]

theorem ceil_divide (small : value < 2 ^ 53) (short : shift ≤ 1074) :
    ceil (divide (.finite (value : ℚ)) (.finite ((2 ^ shift : Nat) : ℚ))) =
      .finite (((value + 2 ^ shift - 1) / 2 ^ shift : Nat) : ℚ) := by
  have positive : 0 < 2 ^ shift := Nat.two_pow_pos shift
  rw [divide_two_pow small short, ceil]
  have quotient : ⌈(value : ℚ) / 2 ^ shift⌉ =
    (((value + 2 ^ shift - 1) / 2 ^ shift : Nat) : ℤ) := by
    have divided := Nat.div_add_mod (value + 2 ^ shift - 1) (2 ^ shift)
    have rest := Nat.mod_lt (value + 2 ^ shift - 1) positive
    generalize (value + 2 ^ shift - 1) / 2 ^ shift = result at divided
    have unitPos : (0 : ℚ) < 2 ^ shift := by positivity
    rw [Int.ceil_eq_iff]
    constructor
    · rw [lt_div_iff₀ unitPos]
      have less : (2 ^ shift * result : Nat) < value + 2 ^ shift := by omega
      have cast : ((2 ^ shift * result : Nat) : ℚ) < ((value + 2 ^ shift : Nat) : ℚ) := by
        exact_mod_cast less
      push_cast at cast ⊢
      linarith
    · rw [div_le_iff₀ unitPos]
      have most : value ≤ 2 ^ shift * result := by omega
      have cast : (value : ℚ) ≤ ((2 ^ shift * result : Nat) : ℚ) := by exact_mod_cast most
      push_cast at cast ⊢
      linarith
  rw [quotient, Int.cast_natCast]

variable {left right : Nat}

theorem multiply_natCast (small : left * right < 2 ^ 53) :
    multiply (.finite (left : ℚ)) (.finite (right : ℚ)) = .finite ((left * right : Nat) : ℚ) := by
  have product := ofInt_natCast small
  rw [ofInt, Int.cast_natCast] at product
  rw [multiply, ← Nat.cast_mul, product]

theorem add_natCast (small : left + right < 2 ^ 53) :
    add (.finite (left : ℚ)) (.finite (right : ℚ)) = .finite ((left + right : Nat) : ℚ) := by
  have sum := ofInt_natCast small
  rw [ofInt, Int.cast_natCast] at sum
  rw [add, ← Nat.cast_add, sum]

theorem subtract_natCast (small : left < 2 ^ 53) (fits : right ≤ left) :
    subtract (.finite (left : ℚ)) (.finite (right : ℚ)) = .finite ((left - right : Nat) : ℚ) := by
  have difference := ofInt_natCast (lt_of_le_of_lt (Nat.sub_le left right) small)
  rw [ofInt, Int.cast_natCast] at difference
  rw [subtract, ← Nat.cast_sub fits, difference]

theorem min_natCast (left right : Nat) :
    min (.finite (left : ℚ)) (.finite (right : ℚ)) = .finite ((left ⊓ right : Nat) : ℚ) := by
  rw [min, if_neg (by simp), less_natCast]
  by_cases below : left < right
  · rw [if_pos (decide_eq_true below), inf_of_le_left below.le]
  · rw [if_neg (by simpa using below), inf_of_le_right (not_lt.mp below)]

theorem truncate_natCast_div (left right : Nat) :
    truncate ((left : ℚ) / right) = ((left / right : Nat) : ℤ) := by
  have nonneg : ¬ (left : ℚ) / right < 0 := not_lt.mpr (by positivity)
  rw [truncate, if_neg nonneg, Rat.floor_natCast_div_natCast]
  norm_cast

theorem remainder_natCast (left : Nat) {right : Nat} (positive : 0 < right) :
    remainder (.finite (left : ℚ)) (.finite (right : ℚ)) = .finite ((left % right : Nat) : ℚ) := by
  have nonzero : (right : ℚ) ≠ 0 := by positivity
  have divided := Nat.div_add_mod left right
  have cast : ((right * (left / right) + left % right : Nat) : ℚ) = (left : ℚ) := by
    rw [divided]
  push_cast at cast
  rw [remainder, if_neg nonzero, truncate_natCast_div, Int.cast_natCast]
  congr 1
  linarith

theorem setUint32_natCast (small : value < 2 ^ 32) :
    setUint32 (.finite (value : ℚ)) = Packing.bigEndian 4 value := by
  have whole : truncate (value : ℚ) = value := by
    have divided := truncate_natCast_div value 1
    rwa [Nat.cast_one, div_one, Nat.div_one] at divided
  rw [setUint32, toUint32, whole]
  congr 1
  omega

end Number

end XFerry.JavaScript
