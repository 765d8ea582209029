/-
Base64url fields of the transfer format.

`b64url_decode` is given here with the calls it makes and every exception of theirs.  It
answers as the decoders of the transfer API and of the journal, which take these calls for
granted.
-/

import XFerry.Encrypted.JournalText
import XFerry.Encrypted.TransferEncoding
import XFerry.Python.Binascii

namespace XFerry.EncryptedTransfer

open List Base64Url

open Base64Url (digit digitValue exists_values join trailingBits)
open Encrypted (Bytes TransferError isUrlDigit)
open Json (Str Value str)
open Python.Binascii

inductive FieldError where
  | transfer (error : TransferError)
  | codec (error : CodecError)

def unpadded (field : String) : TransferError :=
  .validation (field ++ " must be unpadded base64url")

def notCanonical (field : String) : TransferError :=
  .validation (field ++ " must be canonical base64url")

def b64urlEncode (data : Bytes) : Except FieldError Str :=
  match asciiDecode (urlsafeB64encode data) with
  | .error error => .error (.codec error)
  | .ok text => .ok (text.rdropWhile (· = '='.toNat))

def isBase64UrlChar (code : Nat) : Bool :=
  ('A'.toNat ≤ code && code ≤ 'Z'.toNat) || ('a'.toNat ≤ code && code ≤ 'z'.toNat) ||
    ('0'.toNat ≤ code && code ≤ '9'.toNat) || code = '_'.toNat || code = '-'.toNat

/-- `_BASE64URL_RE.fullmatch(value)`.  The place before a last newline, where `$` would
match as well, is not the end of the text. -/
def fullmatchBase64Url (value : Str) : Bool := value.all isBase64UrlChar

def b64urlDecode (interpreter : Interpreter) (field : String) (value : Value) :
    Except FieldError Bytes :=
  match value with
  | .string text =>
    if fullmatchBase64Url text = false then .error (.transfer (unpadded field))
    else if text.length % 4 = 1 then .error (.transfer (unpadded field))
    else
      match b64decode interpreter (bytesOf "-_")
          (text ++ replicate (-(text.length : Int) % 4).toNat '='.toNat) with
      | .error error =>
        -- `except (ValueError, binascii.Error)`
        if error.isValueError = true then .error (.transfer (unpadded field))
        else .error (.codec error)
      | .ok decoded =>
        match b64urlEncode decoded with
        | .error error => .error error
        | .ok encoded =>
          if encoded ≠ text then .error (.transfer (notCanonical field)) else .ok decoded
  | _ => .error (.transfer (unpadded field))

theorem b64urlEncode_eq (data : Bytes) : b64urlEncode data = .ok (str (encode data)) := by
  have last : ∀ nonempty : str (encode data) ≠ [],
      ¬ decide ((str (encode data)).getLast nonempty = '='.toNat) = true := by
    intro nonempty
    have table : ∀ char ∈ Base64Url.alphabet, char.toNat ≠ '='.toNat := by decide
    obtain ⟨char, among, same⟩ := mem_map.mp (getLast_mem nonempty)
    rw [← same, decide_eq_true_eq]
    exact table char (mem_alphabet_of_mem_encode data char among)
  have stripped : ∀ count, (str (encode data) ++ replicate count '='.toNat).rdropWhile
      (fun code => decide (code = '='.toNat)) = str (encode data) := by
    intro count
    induction count with
    | zero =>
      rw [replicate_zero, append_nil]
      exact rdropWhile_eq_self_iff.mpr last
    | succ count ih =>
      rw [replicate_succ', ← append_assoc, rdropWhile_concat_pos _ _ _ (by decide), ih]
  rw [b64urlEncode, asciiDecode_urlsafeB64encode]
  exact congrArg Except.ok (stripped _)

theorem isBase64UrlChar_eq (code : Nat) : isBase64UrlChar code = isUrlDigit code := by
  have table : ∀ code, code < 128 → isBase64UrlChar code = isUrlDigit code := by decide +kernel
  by_cases ascii : code < 128
  · exact table code ascii
  have notDigit : isUrlDigit code = false :=
    Bool.eq_false_iff.mpr fun isDigit => ascii (Encrypted.isUrlDigit_ascii code isDigit)
  have notChar : isBase64UrlChar code = false := by
    simp [isBase64UrlChar]
    omega
  rw [notChar, notDigit]

theorem fullmatchBase64Url_eq (text : Str) : fullmatchBase64Url text = text.all isUrlDigit := by
  rw [fullmatchBase64Url, funext isBase64UrlChar_eq]

variable {values : List Nat} {text : Str}

theorem values_of_digits (digits : text.all isUrlDigit = true) :
    ∃ values : List Nat, (∀ value ∈ values, value < 64) ∧ text = str (values.map digit) :=
  exists_values fun code among => contains_iff_mem.mp (all_eq_true.mp digits code among)

theorem mapM_digitValue_str (small : ∀ value ∈ values, value < 64) :
    (str (values.map digit)).mapM digitValue = some values := by
  have same : values.map (· % 64) = values := by
    conv_rhs => rw [← map_id values]
    exact map_congr_left fun value member => Nat.mod_eq_of_lt (small value member)
  rw [str, mapM_digitValue_map, same]

theorem length_str_digits (values : List Nat) :
    (str (values.map digit)).length = values.length := by
  rw [str, length_map, length_map]

theorem all_isUrlDigit_digits (values : List Nat) :
    (str (values.map digit)).all isUrlDigit = true := by
  rw [all_eq_true]
  intro code among
  obtain ⟨char, isChar, rfl⟩ := mem_map.mp among
  obtain ⟨value, _, rfl⟩ := mem_map.mp isChar
  exact contains_iff_mem.mpr (mem_map_of_mem (digit_mem_alphabet value))

/-- The first two checks let a text through if it is one of digits in a possible number. -/
def Refused (text : Str) : Prop := text.all isUrlDigit = false ∨ text.length % 4 = 1

theorem values_of_not_refused (passes : ¬ Refused text) :
    ∃ values : List Nat, (∀ value ∈ values, value < 64) ∧ values.length % 4 ≠ 1 ∧
      text = str (values.map digit) := by
  rw [Refused, not_or, Bool.not_eq_false] at passes
  obtain ⟨values, small, rfl⟩ := values_of_digits passes.1
  rw [length_str_digits] at passes
  exact ⟨values, small, passes.2, rfl⟩

theorem not_refused_digits (notOne : values.length % 4 ≠ 1) :
    ¬ Refused (str (values.map digit)) := by
  rw [Refused, all_isUrlDigit_digits, length_str_digits]
  exact fun refused => refused.elim Bool.noConfusion notOne

theorem str_encode_join (small : ∀ value ∈ values, value < 64) (notOne : values.length % 4 ≠ 1) :
    str (encode (join values)) = str (values.map digit) ↔ trailingBits values = 0 := by
  rw [← encode_join small notOne]
  exact (map_injective_iff.mpr fun _ _ => Char.toNat_inj.mp).eq_iff

variable {interpreter : Interpreter} {field : String}

theorem b64decode_digits (small : ∀ value ∈ values, value < 64) (notOne : values.length % 4 ≠ 1) :
    b64decode interpreter (bytesOf "-_") (str (values.map digit) ++
        replicate (-((str (values.map digit)).length : Int) % 4).toNat '='.toNat) =
      .ok (join values) := by
  rw [length_str_digits]
  exact b64decode_paddedText small _ interpreter (by omega) (by omega)

theorem b64urlDecode_of_refused (refused : Refused text) :
    b64urlDecode interpreter field (.string text) = .error (.transfer (unpadded field)) := by
  unfold b64urlDecode
  dsimp only
  rw [fullmatchBase64Url_eq]
  by_cases foreign : text.all isUrlDigit = false
  · rw [if_pos foreign]
  · rw [if_neg foreign, if_pos (refused.resolve_left foreign)]

theorem b64urlDecode_digits (small : ∀ value ∈ values, value < 64)
    (notOne : values.length % 4 ≠ 1) :
    b64urlDecode interpreter field (.string (str (values.map digit))) =
      if trailingBits values = 0 then .ok (join values)
      else .error (.transfer (notCanonical field)) := by
  have passes := not_refused_digits notOne
  rw [Refused, not_or] at passes
  unfold b64urlDecode
  dsimp only
  rw [fullmatchBase64Url_eq, if_neg passes.1, if_neg passes.2, b64decode_digits small notOne]
  dsimp only
  rw [b64urlEncode_eq]
  dsimp only
  have same := str_encode_join small notOne
  by_cases clear : trailingBits values = 0
  · rw [if_neg (not_not.mpr (same.mpr clear)), if_pos clear]
  · rw [if_pos fun equal => clear (same.mp equal), if_neg clear]

/-- The decoder of the transfer API gives the same result and the same error. -/
theorem b64urlDecode_eq (text : Str) :
    b64urlDecode interpreter field (.string text) =
      (Encrypted.b64urlDecode field text).mapError .transfer := by
  by_cases refused : Refused text
  · rw [b64urlDecode_of_refused refused, Encrypted.b64urlDecode]
    by_cases foreign : text.all isUrlDigit = false
    · rw [if_pos foreign]
      rfl
    · rw [if_neg foreign, if_pos (refused.resolve_left foreign)]
      rfl
  · obtain ⟨values, small, notOne, rfl⟩ := values_of_not_refused refused
    rw [Refused, not_or] at refused
    rw [b64urlDecode_digits small notOne, Encrypted.b64urlDecode, if_neg refused.1,
      if_neg refused.2, Encrypted.b64decode, mapM_digitValue_str small]
    have same := str_encode_join small notOne
    rw [str] at same
    dsimp only [Option.map_some]
    by_cases clear : trailingBits values = 0
    · rw [if_pos clear, if_neg (not_not.mpr (same.mpr clear))]
      rfl
    · rw [if_neg clear, if_pos fun equal => clear (same.mp equal)]
      rfl

theorem not_refused_encode (data : Bytes) : ¬ Refused (str (encode data)) := by
  have length := length_encode data
  rw [encode_eq_map_split, length_map] at length
  rw [encode_eq_map_split]
  exact not_refused_digits (by omega)

theorem join_eq_of_encode {data : Bytes} (small : ∀ value ∈ values, value < 64)
    (same : str (values.map digit) = str (encode data)) : join values = data := by
  have read := mapM_digitValue_str small
  rw [same, str, encode_eq_map_split, mapM_digitValue_map] at read
  rw [← Option.some.inj read, join_split]

theorem b64urlDecode_eq_ok {data : Bytes} :
    b64urlDecode interpreter field (.string text) = .ok data ↔ text = str (encode data) := by
  by_cases refused : Refused text
  · rw [b64urlDecode_of_refused refused]
    refine iff_of_false nofun ?_
    rintro rfl
    exact not_refused_encode data refused
  obtain ⟨values, small, notOne, rfl⟩ := values_of_not_refused refused
  have canonical := str_encode_join small notOne
  rw [b64urlDecode_digits small notOne]
  by_cases clear : trailingBits values = 0
  · rw [if_pos clear, Except.ok.injEq]
    constructor
    · rintro rfl
      exact (canonical.mpr clear).symm
    · exact join_eq_of_encode small
  · rw [if_neg clear]
    refine iff_of_false nofun fun same => clear (canonical.mp ?_)
    rw [join_eq_of_encode small same, same]

/-- The decoder of the journal gives the same bytes, and no others. -/
theorem decodeBytes_eq (text : Str) (message : String) :
    Encrypted.decodeBytes text message =
      (b64urlDecode interpreter field (.string text)).mapError fun _ =>
        Encrypted.corrupt message := by
  unfold Encrypted.decodeBytes
  cases decoded : decode text with
  | some data =>
    have isText : text = str (encode data) := decode_eq_some.mp decoded
    rw [b64urlDecode_eq_ok.mpr isText]
    rfl
  | none =>
    cases answer : b64urlDecode interpreter field (.string text) with
    | error failure => rfl
    | ok data =>
      have isText : text = str (encode data) := b64urlDecode_eq_ok.mp answer
      rw [decode_eq_some.mpr isText] at decoded
      cases decoded

theorem unpadded_ne_notCanonical (field : String) : unpadded field ≠ notCanonical field := by
  intro same
  have messages := (String.append_right_inj field).mp (TransferError.validation.inj same)
  exact absurd messages (by decide)

theorem foreign_iff :
    text.all isUrlDigit = false ↔ ∃ code ∈ text, isBase64UrlChar code = false := by
  rw [← fullmatchBase64Url_eq, fullmatchBase64Url, all_eq_false]
  simp only [Bool.not_eq_true]

theorem b64urlDecode_eq_ok_iff {data : Bytes} :
    b64urlDecode interpreter field (.string text) = .ok data ↔ b64urlEncode data = .ok text := by
  rw [b64urlDecode_eq_ok, b64urlEncode_eq, Except.ok.injEq]
  exact eq_comm

theorem b64urlDecode_unpadded_iff :
    b64urlDecode interpreter field (.string text) = .error (.transfer (unpadded field)) ↔
      Refused text := by
  refine ⟨fun answer => ?_, b64urlDecode_of_refused⟩
  by_contra passes
  obtain ⟨values, small, notOne, rfl⟩ := values_of_not_refused passes
  rw [b64urlDecode_digits small notOne] at answer
  split at answer
  · cases answer
  · have same := FieldError.transfer.inj (Except.error.inj answer)
    exact unpadded_ne_notCanonical field same.symm

/-- The text spells digits in a possible number, with something in the bits that no byte
takes. -/
def HasTrailingBits (text : Str) : Prop :=
  ∃ values : List Nat, (∀ value ∈ values, value < 64) ∧ text = str (values.map digit) ∧
    values.length % 4 ≠ 1 ∧ trailingBits values ≠ 0

theorem b64urlDecode_notCanonical_iff :
    b64urlDecode interpreter field (.string text) = .error (.transfer (notCanonical field)) ↔
      HasTrailingBits text := by
  constructor
  · intro answer
    have passes : ¬ Refused text := by
      intro refused
      rw [b64urlDecode_of_refused refused] at answer
      exact unpadded_ne_notCanonical field (FieldError.transfer.inj (Except.error.inj answer))
    obtain ⟨values, small, notOne, rfl⟩ := values_of_not_refused passes
    refine ⟨values, small, rfl, notOne, fun clear => ?_⟩
    rw [b64urlDecode_digits small notOne, if_pos clear] at answer
    cases answer
  · rintro ⟨values, small, rfl, notOne, left⟩
    rw [b64urlDecode_digits small notOne, if_neg left]

/-- Nothing but the validation error comes out of the decoder. -/
theorem b64urlDecode_outcome (interpreter : Interpreter) (field : String) (text : Str) :
    (∃ data, b64urlDecode interpreter field (.string text) = .ok data) ∨
      ∃ message, b64urlDecode interpreter field (.string text) =
        .error (.transfer (.validation message)) := by
  by_cases refused : Refused text
  · exact .inr ⟨_, b64urlDecode_of_refused refused⟩
  obtain ⟨values, small, notOne, rfl⟩ := values_of_not_refused refused
  rw [b64urlDecode_digits small notOne]
  split
  · exact .inl ⟨_, rfl⟩
  · exact .inr ⟨_, rfl⟩

/-- Every byte string has one text, which alone is decoded to it.  A text that no byte
string has is rejected, for what it is. -/
theorem base64url_canonical (interpreter : Interpreter) (field : String) :
    (∀ data, ∃ text, b64urlEncode data = .ok text) ∧
    (∀ (text : Str) (data : Bytes),
      b64urlDecode interpreter field (.string text) = .ok data ↔ b64urlEncode data = .ok text) ∧
    (∀ text : Str,
      (∃ message, b64urlDecode interpreter field (.string text) =
        .error (.transfer (.validation message))) ↔ ∀ data, b64urlEncode data ≠ .ok text) ∧
    (∀ text : Str,
      b64urlDecode interpreter field (.string text) = .error (.transfer (unpadded field)) ↔
        (∃ code ∈ text, isBase64UrlChar code = false) ∨ text.length % 4 = 1) ∧
    ∀ text : Str,
      b64urlDecode interpreter field (.string text) = .error (.transfer (notCanonical field)) ↔
        HasTrailingBits text := by
  refine ⟨fun data => ⟨_, b64urlEncode_eq data⟩, fun _ _ => b64urlDecode_eq_ok_iff,
    fun text => ?_, fun text => ?_, fun _ => b64urlDecode_notCanonical_iff⟩
  · constructor
    · rintro ⟨message, rejected⟩ data encoded
      rw [b64urlDecode_eq_ok_iff.mpr encoded] at rejected
      cases rejected
    · intro unspelled
      rcases b64urlDecode_outcome interpreter field text with ⟨data, decoded⟩ | rejected
      · exact (unspelled data (b64urlDecode_eq_ok_iff.mp decoded)).elim
      · exact rejected
  · rw [b64urlDecode_unpadded_iff, Refused, foreign_iff]

end XFerry.EncryptedTransfer
