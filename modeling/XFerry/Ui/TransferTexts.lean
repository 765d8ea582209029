/-
Agreement of the browser and the server on texts of the transfer format.

A text that one of them decodes is in ASCII, where a character is one unit.
-/

import XFerry.Encrypted.TransferEncoding
import XFerry.Ui.TransferCrypto

namespace XFerry.Ui

open List Base64Url

open Encrypted (Bytes b64urlDecode fileIdBytes isHexDigit isUrlDigit)
open JavaScript (CodePoint Text all_utf16 codesOf literal unitCodes unitCodes_utf16 utf16)

/-! ### File IDs -/

theorem pairs_eq_fromHex {codes : List Nat} {count : Nat} (length : codes.length = count * 2) :
    ((range count).map fun index =>
        UInt8.ofNat (parseHex ((codes.drop (index * 2)).take 2))) =
      Packing.fromHex (codes.map Char.ofNat) := by
  induction count generalizing codes with
  | zero =>
    rw [length_eq_zero_iff.mp (length.trans (Nat.zero_mul 2))]
    rfl
  | succ count ih =>
    match codes, length with
    | [], length => simp at length
    | [_], length =>
      simp only [length_cons, length_nil] at length
      omega
    | high :: low :: rest, length =>
      have restLength : rest.length = count * 2 := by
        simp only [length_cons] at length
        omega
      rw [range_succ_eq_map, map_cons, map_map, map_cons, map_cons,
        Packing.fromHex, ← ih restLength]
      refine congrArg₂ cons ?_ ?_
      · simp [parseHex]
      · refine map_congr_left ?_
        intro index _
        rw [Function.comp_apply, Nat.succ_mul]
        rfl

theorem decodeFileId_agrees (text : List CodePoint) :
    (decodeFileId (utf16 text)).toOption = (fileIdBytes (codesOf text)).toOption := by
  have hex := all_utf16 Encrypted.isHexDigit_ascii text
  unfold decodeFileId fileIdBytes
  by_cases valid : (codesOf text).all isHexDigit = true
  · have small : ∀ code ∈ codesOf text, code < 0x10000 := by
      intro code among
      have ascii := Encrypted.isHexDigit_ascii code (all_eq_true.mp valid code among)
      omega
    have units := unitCodes_utf16 small
    have browserValid : (codesOf text).all isHexUnit = true := valid
    rw [units]
    by_cases length : (codesOf text).length = 32
    · have pairs := pairs_eq_fromHex (show (codesOf text).length = 16 * 2 from length)
      rw [if_pos ⟨length, browserValid⟩, if_pos ⟨length, valid⟩, pairs]
      rfl
    · rw [if_neg (fun both => length both.1), if_neg (fun both => length both.1)]
      rfl
  · have browserInvalid : ¬ (unitCodes (utf16 text)).all isHexUnit = true := fun accepted =>
      valid (hex.mp accepted)
    rw [if_neg (fun both => browserInvalid both.2), if_neg (fun both => valid both.2)]
    rfl

/-! ### Base64url -/

theorem unitCodes_injective {left right : Text} (same : unitCodes left = unitCodes right) :
    left = right :=
  map_injective_iff.mpr (fun _ _ => UInt16.toNat_inj.mp) same

theorem literal_append (left right : List Char) : literal
    (left ++ right) = literal left ++ literal right :=
  map_append

theorem replaceAll_append (sought replacement : Char) (left right : Text) :
    replaceAll sought replacement (left ++ right) =
      replaceAll sought replacement left ++ replaceAll sought replacement right :=
  map_append

theorem replaced_digits (values : List Nat) :
    replaceAll '/' '_' (replaceAll '+' '-' (literal
      ((values.map digit).map Base64.ofUrl))) =
      literal (values.map digit) := by
  have table : ∀ small, small < 64 →
      replaceAll '/' '_' (replaceAll '+' '-' (literal [Base64.ofUrl
        (alphabet.getD small 'A')])) =
        literal [alphabet.getD small 'A'] := by decide +kernel
  induction values with
  | nil => rfl
  | cons value rest ih =>
    have first := table (value % 64) (Nat.mod_lt _ (by decide))
    exact congrArg₂ (· ++ ·) first ih

theorem replaced_padding (count : Nat) :
    replaceAll '/' '_' (replaceAll '+' '-' (literal (replicate count '='))) =
      literal (replicate count '=') := by
  induction count with
  | zero => rfl
  | succ count ih => exact congrArg₂ cons rfl ih

theorem withoutTrailing_append {sought : Char} {text : Text} (count : Nat)
    (none : UInt16.ofNat sought.toNat ∉ text) :
    withoutTrailing sought (text ++ literal (replicate count sought)) = text := by
  have padding : (literal (replicate count sought)).reverse =
      replicate count (UInt16.ofNat sought.toNat) := by
    rw [literal, map_replicate, reverse_replicate]
  have kept : text.reverse.dropWhile (fun unit => decide (unit = UInt16.ofNat sought.toNat)) =
      text.reverse := by
    refine dropWhile_eq_self_iff.mpr ?_
    intro nonempty first
    have member := mem_reverse.mp (getElem_mem nonempty)
    exact none (of_decide_eq_true first ▸ member)
  rw [withoutTrailing, reverse_append, padding,
    dropWhile_append_of_pos (by simp +contextual [mem_replicate]), kept,
    reverse_reverse]

theorem digits_ascii (values : List Nat) :
    ∀ char ∈ values.map digit, char.toNat < 128 ∧ char ≠ '=' := by
  have table : ∀ small, small < 64 → (alphabet.getD small 'A').toNat < 128 ∧
      alphabet.getD small 'A' ≠ '=' := by decide +kernel
  intro char among
  obtain ⟨value, _, rfl⟩ := mem_map.mp among
  exact table (value % 64) (Nat.mod_lt _ (by decide))

theorem ofNat_notMem_literal {text : List Char} {char : Char} (small : char.toNat < 128)
    (ascii : ∀ other ∈ text, other.toNat < 128 ∧ other ≠ char) :
    UInt16.ofNat char.toNat ∉ literal text := by
  intro among
  obtain ⟨other, inText, same⟩ := mem_map.mp among
  obtain ⟨otherSmall, different⟩ := ascii other inText
  have codes := congrArg UInt16.toNat same
  rw [UInt16.toNat_ofNat', UInt16.toNat_ofNat', Nat.mod_eq_of_lt (by omega),
    Nat.mod_eq_of_lt (by omega)] at codes
  exact different (Char.toNat_inj.mp codes)

theorem encodeBase64Url_eq (bytes : Bytes) : encodeBase64Url bytes = literal (encode bytes) := by
  rw [encodeBase64Url, JavaScript.btoa, Base64.encode, encode_eq_map_split,
    literal_append, replaceAll_append, replaceAll_append, replaced_digits, Base64.padding,
    replaced_padding]
  exact withoutTrailing_append _ (ofNat_notMem_literal (by decide) (digits_ascii _))

theorem withoutPadding_append {codes : List Nat} {count : Nat} (short : count ≤ 2)
    (whole : (codes.length + count) % 4 = 0) (none : '='.toNat ∉ codes) :
    JavaScript.withoutPadding (codes ++ replicate count '='.toNat) = codes := by
  have notLast (first : Nat) : codes.drop first ≠ ['='.toNat] := fun last =>
    none (mem_of_mem_drop (last ▸ mem_singleton_self _))
  have notBoth (first : Nat) : codes.drop first ≠ ['='.toNat, '='.toNat] := fun last =>
    none (mem_of_mem_drop (last ▸ mem_cons_self))
  unfold JavaScript.withoutPadding
  rw [if_pos (by rw [length_append, length_replicate, whole])]
  match count, short with
  | 0, _ =>
    rw [replicate_zero, append_nil, if_neg (notBoth _), if_neg (notLast _)]
  | 1, _ =>
    have split : (codes ++ ['='.toNat]).drop (codes.length + 1 - 2) ≠ ['='.toNat, '='.toNat] := by
      intro both
      rw [drop_append_of_le_length (by omega)] at both
      exact notLast _ (append_cancel_right (both.trans (singleton_append).symm))
    rw [replicate_one, length_append, length_singleton, if_neg split,
      Nat.add_sub_cancel, drop_left, if_pos rfl, take_left]
  | 2, _ =>
    have padding : replicate 2 '='.toNat = ['='.toNat, '='.toNat] := rfl
    rw [length_append, length_replicate, Nat.add_sub_cancel, drop_left, if_pos padding, take_left]

/-- The unit that the browser gives to `atob` for a digit. -/
def standardUnit (unit : UInt16) : UInt16 :=
  if unit = UInt16.ofNat '-'.toNat then UInt16.ofNat '+'.toNat
  else if unit = UInt16.ofNat '_'.toNat then UInt16.ofNat '/'.toNat
  else unit

theorem replaceAll_standard (text : Text) :
    replaceAll '_' '/' (replaceAll '-' '+' text) = text.map standardUnit := by
  rw [replaceAll, replaceAll, map_map]
  refine map_congr_left ?_
  intro unit _
  rw [Function.comp_apply, standardUnit]
  by_cases minus : unit = UInt16.ofNat '-'.toNat
  · rw [if_pos minus, if_pos minus]
    rfl
  · rw [if_neg minus, if_neg minus]

theorem standardUnit_spec {unit : UInt16} (isDigit : isUrlDigit unit.toNat = true) :
    Base64.toUrl (standardUnit unit).toNat = unit.toNat ∧ (standardUnit unit).toNat ≠ '='.toNat ∧
      JavaScript.isAsciiWhitespace (standardUnit unit) = false := by
  have table : ∀ small, small < 128 → isUrlDigit small = true →
      Base64.toUrl (standardUnit (UInt16.ofNat small)).toNat = small ∧
        (standardUnit (UInt16.ofNat small)).toNat ≠ '='.toNat ∧
        JavaScript.isAsciiWhitespace (standardUnit (UInt16.ofNat small)) = false := by
    decide +kernel
  have known := table unit.toNat (Encrypted.isUrlDigit_ascii _ isDigit) isDigit
  rwa [UInt16.ofNat_toNat] at known

/-- `atob` reads the digits of the browser's text. -/
theorem atob_padded {text : Text} (digits : (unitCodes text).all isUrlDigit = true)
    (length : text.length % 4 ≠ 1) :
    JavaScript.atob (replaceAll '_' '/' (replaceAll '-' '+' text) ++
        literal (replicate ((4 - text.length % 4) % 4) '=')) =
      Encrypted.b64decode (unitCodes text) := by
  have valid : ∀ unit ∈ text, isUrlDigit unit.toNat = true := fun unit among =>
    all_eq_true.mp digits unit.toNat (mem_map_of_mem among)
  have kept :
    (text.map standardUnit ++ literal (replicate ((4 - text.length % 4) % 4) '=')).filter
        (fun unit => !JavaScript.isAsciiWhitespace unit) =
      text.map standardUnit ++ literal (replicate ((4 - text.length % 4) % 4) '=') := by
    rw [filter_eq_self]
    intro unit among
    rcases mem_append.mp among with digit | padding
    · obtain ⟨source, inText, rfl⟩ := mem_map.mp digit
      rw [(standardUnit_spec (valid source inText)).2.2]
      rfl
    rw [literal, map_replicate] at padding
    rw [eq_of_mem_replicate padding]
    rfl
  have codes : unitCodes (text.map standardUnit ++
        literal (replicate ((4 - text.length % 4) % 4) '=')) =
      unitCodes (text.map standardUnit) ++ replicate ((4 - text.length % 4) % 4) '='.toNat := by
    rw [unitCodes, map_append, literal, map_replicate, map_replicate]
    rfl
  have standardLength : (unitCodes (text.map standardUnit)).length = text.length := by
    rw [unitCodes, length_map, length_map]
  have notPadding : '='.toNat ∉ unitCodes (text.map standardUnit) := by
    intro among
    obtain ⟨unit, inStandard, same⟩ := mem_map.mp among
    obtain ⟨source, inText, rfl⟩ := mem_map.mp inStandard
    exact (standardUnit_spec (valid source inText)).2.1 same
  have read : (unitCodes (text.map standardUnit)).mapM
        (fun code => digitValue (Base64.toUrl code)) =
      (unitCodes text).mapM digitValue := by
    have back : (unitCodes (text.map standardUnit)).map Base64.toUrl = unitCodes text := by
      rw [unitCodes, unitCodes, map_map, map_map]
      exact map_congr_left fun unit among => (standardUnit_spec (valid unit among)).1
    rw [← back, mapM_map]
    rfl
  unfold JavaScript.atob
  dsimp only
  rw [replaceAll_standard, kept, codes, withoutPadding_append (by omega) (by omega) notPadding,
    standardLength, if_neg length, read]
  rfl

theorem decodeBase64Url_agrees (text : List CodePoint) (field : String) :
    (decodeBase64Url (utf16 text) field).toOption =
    (b64urlDecode field (codesOf text)).toOption := by
  have url := all_utf16 Encrypted.isUrlDigit_ascii text
  unfold decodeBase64Url b64urlDecode
  by_cases valid : (codesOf text).all isUrlDigit = true
  · have small : ∀ code ∈ codesOf text, code < 0x10000 := by
      intro code among
      have ascii := Encrypted.isUrlDigit_ascii code (all_eq_true.mp valid code among)
      omega
    have units := unitCodes_utf16 small
    have browserValid : (unitCodes (utf16 text)).all isUrlUnit = true := url.mpr valid
    have length : (utf16 text).length = (codesOf text).length := by
      rw [← units, unitCodes, length_map]
    have serverValid : ¬ (codesOf text).all isUrlDigit = false := by
      rw [valid]
      exact Bool.noConfusion
    rw [if_neg serverValid]
    by_cases short : (codesOf text).length % 4 = 1
    · rw [if_pos (Or.inr (length ▸ short)), if_pos short]
      rfl
    have accepted : ¬ ((unitCodes (utf16 text)).all isUrlUnit = false ∨
        (utf16 text).length % 4 = 1) := by
      rw [browserValid, length]
      simp [short]
    rw [if_neg accepted, if_neg short]
    dsimp only
    rw [atob_padded (url.mpr valid) (length ▸ short), units]
    cases Encrypted.b64decode (codesOf text) with
    | none => rfl
    | some decoded =>
      have same : encodeBase64Url decoded = utf16 text ↔
          (encode decoded).map Char.toNat = codesOf text := by
        have written : unitCodes (encodeBase64Url decoded) = (encode decoded).map Char.toNat := by
          rw [encodeBase64Url_eq, JavaScript.unitCodes_literal]
          rw [encode_eq_map_split]
          exact fun char among => (digits_ascii _ char among).1
        rw [← written, ← units]
        exact ⟨congrArg unitCodes, unitCodes_injective⟩
      dsimp only
      by_cases canonical : (encode decoded).map Char.toNat = codesOf text
      · rw [if_neg (not_not.mpr (same.mpr canonical)), if_neg (not_not.mpr canonical)]
        rfl
      · rw [if_pos (fun equal => canonical (same.mp equal)), if_pos canonical]
        rfl
  · have browserInvalid : (unitCodes (utf16 text)).all isUrlUnit = false :=
      Bool.eq_false_iff.mpr (fun accepted => valid (url.mp accepted))
    rw [if_pos (Or.inl browserInvalid), if_pos (Bool.eq_false_iff.mpr valid)]
    rfl

end XFerry.Ui
