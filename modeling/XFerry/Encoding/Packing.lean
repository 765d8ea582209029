/-
Fixed-width numbers and hexadecimal text as bytes.
-/

import XFerry.Lists

namespace XFerry.Packing

open List

open UInt8 (ofNat toNat_ofNat')

def bigEndian : Nat → Nat → List UInt8
  | 0, _ => []
  | width + 1, value => ofNat (value / 256 ^ width) :: bigEndian width value

theorem length_bigEndian (width value : Nat) : (bigEndian width value).length = width := by
  induction width with
  | zero => rfl
  | succ width ih => rw [bigEndian, length_cons, ih]

variable {width left right : Nat}

theorem mod_eq_of_bigEndian_eq (same : bigEndian width left = bigEndian width right) :
    left % 256 ^ width = right % 256 ^ width := by
  induction width with
  | zero => rw [Nat.pow_zero, Nat.mod_one, Nat.mod_one]
  | succ width ih =>
    rw [bigEndian, bigEndian, cons.injEq] at same
    have first := congrArg UInt8.toNat same.1
    rw [toNat_ofNat', toNat_ofNat'] at first
    rw [Nat.mod_pow_succ, Nat.mod_pow_succ, ih same.2, first]

theorem bigEndian_injective (leftFits : left < 256 ^ width)
    (rightFits : right < 256 ^ width) (same : bigEndian width left = bigEndian width right) :
    left = right := by
  have equal := mod_eq_of_bigEndian_eq same
  rwa [Nat.mod_eq_of_lt leftFits, Nat.mod_eq_of_lt rightFits] at equal

theorem bigEndian_add (high low value : Nat) :
    bigEndian (high + low) value = bigEndian high (value / 256 ^ low) ++ bigEndian low value := by
  induction high with
  | zero => rw [Nat.zero_add, bigEndian, nil_append]
  | succ high ih =>
    rw [Nat.add_right_comm, bigEndian, bigEndian, ih, cons_append, Nat.div_div_eq_div_mul,
      ← Nat.pow_add, Nat.add_comm low high]

theorem bigEndian_mod (width value : Nat) :
    bigEndian width (value % 256 ^ width) = bigEndian width value := by
  suffices wider : ∀ more, bigEndian width (value % 256 ^ (width + more)) = bigEndian width value
    from wider 0
  induction width with
  | zero => exact fun _ => rfl
  | succ width ih =>
    intro more
    have lower : ofNat (value % 256 ^ (width + 1 + more) / 256 ^ width) =
        ofNat (value / 256 ^ width) := by
      apply UInt8.toNat_inj.mp
      rw [toNat_ofNat', toNat_ofNat', Nat.add_assoc, Nat.pow_add,
        Nat.mod_mul_right_div_self, Nat.pow_add, Nat.pow_one]
      exact Nat.mod_mul_right_mod _ 256 _
    rw [bigEndian, bigEndian, lower, Nat.add_assoc, ih]

def littleEndian : Nat → Nat → List UInt8
  | 0, _ => []
  | width + 1, value => ofNat value :: littleEndian width (value / 256)

def ofLittleEndian (bytes : List UInt8) : Nat :=
  bytes.foldr (fun byte value => byte.toNat + 256 * value) 0

theorem ofLittleEndian_littleEndian (width value : Nat) :
    ofLittleEndian (littleEndian width value) = value % 256 ^ width := by
  induction width generalizing value with
  | zero => rw [Nat.pow_zero, Nat.mod_one]; rfl
  | succ width ih =>
    have step : ofLittleEndian (littleEndian (width + 1) value) =
        (ofNat value).toNat + 256 * ofLittleEndian (littleEndian width (value / 256)) := rfl
    have wider : 256 ^ (width + 1) = 256 * 256 ^ width := Nat.pow_succ'
    rw [step, ih, toNat_ofNat', wider]
    exact Nat.mod_mul.symm

abbrev Field := Nat × Int

def Fits (field : Field) : Prop := 0 ≤ field.2 ∧ field.2 < 256 ^ field.1

instance (field : Field) : Decidable (Fits field) := by
  unfold Fits
  infer_instance

theorem Fits.toNat_lt {field : Field} (fits : Fits field) : field.2.toNat < 256 ^ field.1 := by
  refine (Int.toNat_lt fits.1).mpr ?_
  exact fits.2

def layout (fields : List Field) : List UInt8 :=
  fields.flatMap fun field => bigEndian field.1 field.2.toNat

/-- Unsigned fields in big-endian order, with `none` for `struct.error`. -/
def pack (fields : List Field) : Option (List UInt8) :=
  if ∀ field ∈ fields, Fits field then some (layout fields) else none

theorem pack_of_fits {fields : List Field} (fit : ∀ field ∈ fields, Fits field) :
    pack fields = some (layout fields) := if_pos fit

theorem length_layout (fields : List Field) :
    (layout fields).length = (fields.map Prod.fst).sum := by
  rw [layout, length_flatMap]
  simp only [length_bigEndian]

theorem layout_injective {left right : List Field} (leftFits : ∀ field ∈ left, Fits field)
    (rightFits : ∀ field ∈ right, Fits field) (widths : left.map Prod.fst = right.map Prod.fst)
    (same : layout left = layout right) : left = right := by
  induction left generalizing right with
  | nil => exact (map_eq_nil_iff.mp widths.symm).symm
  | cons field rest ih =>
    cases right with
    | nil => cases widths
    | cons other others =>
      rw [map_cons, map_cons, cons.injEq] at widths
      rw [layout, layout, flatMap_cons, flatMap_cons] at same
      have parts := append_inj same (by rw [length_bigEndian, length_bigEndian, widths.1])
      rw [forall_mem_cons] at leftFits rightFits
      have rightRange := rightFits.1.toNat_lt
      have numbers := parts.1
      rw [← widths.1] at rightRange numbers
      have values := bigEndian_injective leftFits.1.toNat_lt rightRange numbers
      have leftSign := leftFits.1.1
      have rightSign := rightFits.1.1
      have head : field = other := Prod.ext widths.1 (by omega)
      rw [head, ih leftFits.2 rightFits.2 widths.2 parts.2]

def hexDigits : List Char := "0123456789abcdef".toList

/-- `bytes.fromhex` of lower-case text. -/
def fromHex : List Char → List UInt8
  | high :: low :: rest =>
    ofNat (hexDigits.idxOf high * 16 + hexDigits.idxOf low) :: fromHex rest
  | _ => []

def toHex : List UInt8 → List Char
  | [] => []
  | byte :: rest =>
    hexDigits.getD (byte.toNat / 16) '0' :: hexDigits.getD (byte.toNat % 16) '0' :: toHex rest

theorem length_fromHex (text : List Char) : (fromHex text).length = text.length / 2 := by
  fun_induction fromHex text with
  | case1 high low rest ih =>
    rw [length_cons, ih, length_cons, length_cons]
    omega
  | case2 text short =>
    match text, short with
    | [], _ => rfl
    | [_], _ => simp
    | high :: low :: rest, short => exact (short high low rest rfl).elim

theorem getD_idxOf {digit : Char} (isHex : digit ∈ hexDigits) :
    hexDigits.idxOf digit < 16 ∧ hexDigits.getD (hexDigits.idxOf digit) '0' = digit := by
  have inside := idxOf_lt_length_of_mem isHex
  refine ⟨inside, ?_⟩
  rw [getD_eq_getElem _ _ inside, getElem_idxOf]

theorem toHex_fromHex {text : List Char} (isHex : ∀ digit ∈ text, digit ∈ hexDigits)
    (even : text.length % 2 = 0) : toHex (fromHex text) = text := by
  fun_induction fromHex text with
  | case1 high low rest ih =>
    rw [forall_mem_cons, forall_mem_cons] at isHex
    obtain ⟨highSmall, highBack⟩ := getD_idxOf isHex.1
    obtain ⟨lowSmall, lowBack⟩ := getD_idxOf isHex.2.1
    have value : (ofNat (hexDigits.idxOf high * 16 + hexDigits.idxOf low)).toNat =
        hexDigits.idxOf high * 16 + hexDigits.idxOf low := by
      rw [toNat_ofNat']
      omega
    have quotient : (hexDigits.idxOf high * 16 + hexDigits.idxOf low) / 16 =
        hexDigits.idxOf high := by omega
    have remainder : (hexDigits.idxOf high * 16 + hexDigits.idxOf low) % 16 =
        hexDigits.idxOf low := by omega
    rw [length_cons, length_cons] at even
    rw [toHex, value, quotient, remainder, highBack, lowBack, ih isHex.2.2 (by omega)]
  | case2 text short =>
    match text, short with
    | [], _ => rfl
    | [_], _ => simp at even
    | high :: low :: rest, short => exact (short high low rest rfl).elim

end XFerry.Packing
