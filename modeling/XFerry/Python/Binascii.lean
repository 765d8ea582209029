/-
Base64 of the standard library: `binascii.a2b_base64` and the functions of `base64`.

The supported versions of the interpreter check a text at different places.  From 3.11 on
`binascii` has a strict mode; in 3.10 `base64` matches a pattern before.
-/

import XFerry.Encoding.Base64Url
import XFerry.Ensures
import XFerry.Python.Text

namespace XFerry.Python.Binascii

open List

open Base64Url (digit join)
open UInt8 (ofNat toNat_inj toNat_ofNat')

/-- What the versions do differently. -/
structure Interpreter where
  hasStrictMode : Bool
  /-- The strict mode refuses padding behind a whole group. -/
  refusesExcessPadding : Bool

/-- All but `AssertionError` are kinds of `ValueError`. -/
inductive CodecError where
  | valueError
  | binasciiError
  | unicodeDecodeError
  | assertionError
deriving DecidableEq

def CodecError.isValueError : CodecError → Bool
  | .valueError | .binasciiError | .unicodeDecodeError => true
  | .assertionError => false

def byteOf (char : Char) : UInt8 := ofNat char.toNat

def bytesOf (text : String) : Bytes := text.toList.map byteOf

/-- `_bytes_from_decode_data` of a text, by its code points. -/
def asciiEncode (text : List Nat) : Except CodecError Bytes :=
  if ∀ code ∈ text, code < 128 then .ok (text.map ofNat) else .error .valueError

/-- `bytes.decode("ascii")`. -/
def asciiDecode (bytes : Bytes) : Except CodecError (List Nat) :=
  if ∀ byte ∈ bytes, byte.toNat < 128 then .ok (bytes.map UInt8.toNat)
  else .error .unicodeDecodeError

/-- `bytes.translate(bytes.maketrans(source, target))`. -/
def translate (source target bytes : Bytes) : Bytes :=
  bytes.map fun byte => ((source.zip target).lookup byte).getD byte

def alphabet : Bytes :=
  bytesOf "ABCDEFGHIJKLMNOPQRSTUVWXYZabcdefghijklmnopqrstuvwxyz0123456789+/"

def tableA2b (byte : UInt8) : Option UInt8 :=
  let position := alphabet.idxOf byte
  if position < 64 then some (ofNat position) else none

def pad : UInt8 := byteOf '='

/-- `leftChar` holds the bits that have not made a byte yet. -/
structure Scan where
  output : Bytes
  leftChar : UInt8
  quadPos : Fin 4
  pads : Nat
  paddingStarted : Bool

/-- The scan between two groups. -/
def Scan.between (output : Bytes) : Scan :=
  { output := output, leftChar := 0, quadPos := 0, pads := 0, paddingStarted := false }

def Scan.digit (scan : Scan) (value : UInt8) : Scan :=
  match scan.quadPos with
  | 0 => { scan with leftChar := value, quadPos := 1, pads := 0 }
  | 1 =>
    { scan with
      output := scan.output ++ [scan.leftChar <<< 2 ||| value >>> 4]
      leftChar := value &&& 0x0f, quadPos := 2, pads := 0 }
  | 2 =>
    { scan with
      output := scan.output ++ [scan.leftChar <<< 4 ||| value >>> 2]
      leftChar := value &&& 0x03, quadPos := 3, pads := 0 }
  | 3 =>
    { scan with
      output := scan.output ++ [scan.leftChar <<< 6 ||| value]
      leftChar := 0, quadPos := 0, pads := 0 }

def Scan.padding (scan : Scan) : Scan :=
  { scan with
    pads := if 2 ≤ scan.quadPos.val then scan.pads + 1 else scan.pads
    paddingStarted := true }

def Scan.finishes (scan : Scan) : Prop :=
  2 ≤ scan.quadPos.val ∧ 4 ≤ scan.quadPos.val + (scan.pads + 1)

instance (scan : Scan) : Decidable scan.finishes := by
  unfold Scan.finishes
  infer_instance

/-- The loop of `a2b_base64`. -/
def scanFrom (interpreter : Interpreter) (strict : Bool) (scan : Scan) :
    Bytes → Except CodecError Bytes
  | [] => if scan.quadPos = 0 then .ok scan.output else .error .binasciiError
  | byte :: rest =>
    if byte = pad then
      if strict = true ∧ interpreter.refusesExcessPadding = true ∧ scan.quadPos = 0 then
        .error .binasciiError
      else if scan.finishes then
        -- what stands behind the padding is not read
        if strict = true ∧ rest ≠ [] then .error .binasciiError else .ok scan.output
      else scanFrom interpreter strict scan.padding rest
    else
      match tableA2b byte with
      | none =>
        if strict = true then .error .binasciiError else scanFrom interpreter strict scan rest
      | some value =>
        if strict = true ∧ scan.paddingStarted = true then .error .binasciiError
        else scanFrom interpreter strict (scan.digit value) rest

def a2bBase64 (interpreter : Interpreter) (strict : Bool) (data : Bytes) :
    Except CodecError Bytes :=
  if strict = true ∧ data.head? = some pad then .error .binasciiError
  else scanFrom interpreter strict (.between []) data

/-- `re.fullmatch(b'[A-Za-z0-9+/]*={0,2}', data)`. -/
def matchesBase64 (data : Bytes) : Bool :=
  let rest := data.dropWhile fun byte => alphabet.contains byte
  rest.length ≤ 2 && rest.all (· == pad)

/-- `b64decode` with `validate`. -/
def b64decode (interpreter : Interpreter) (altchars : Bytes) (text : List Nat) :
    Except CodecError Bytes := do
  let data ← asciiEncode text
  if altchars.length ≠ 2 then .error .assertionError
  else
    let standard := translate altchars (bytesOf "+/") data
    if interpreter.hasStrictMode = true then a2bBase64 interpreter true standard
    else if matchesBase64 standard = true then a2bBase64 interpreter false standard
    else .error .binasciiError

def urlsafeB64encode (data : Bytes) : Bytes :=
  translate (bytesOf "+/") (bytesOf "-_") ((Base64.encode data).map byteOf)

theorem ofNat_eq_ofNat {left right : Nat} (same : left % 256 = right % 256) :
    ofNat left = ofNat right := by
  apply UInt8.toNat_inj.mp
  rw [toNat_ofNat', toNat_ofNat']
  exact same

theorem toNat_shiftLeft_or (width : Nat) {high low : UInt8} (short : width < 8)
    (lowFits : low.toNat < 2 ^ width) (highFits : high.toNat * 2 ^ width < 2 ^ 8) :
    (high <<< ofNat width ||| low).toNat = high.toNat * 2 ^ width + low.toNat := by
  have shift : (ofNat width).toNat % 8 = width := by
    rw [toNat_ofNat']
    omega
  rw [UInt8.toNat_or, UInt8.toNat_shiftLeft, shift, Nat.shiftLeft_eq, Nat.mod_eq_of_lt highFits,
    ← Nat.shiftLeft_eq, ← Nat.shiftLeft_add_eq_or_of_lt lowFits]

variable {first second third fourth : Nat}

theorem toNat_small {value : Nat} (small : value < 64) : (ofNat value).toNat = value := by
  rw [toNat_ofNat']
  omega

theorem byte_first (one : first < 64) (two : second < 64) :
    ofNat first <<< 2 ||| ofNat second >>> 4 =
      ofNat ((first * 64 + second) / 16) := by
  have low : (ofNat second >>> 4).toNat = second / 16 := by
    rw [UInt8.toNat_shiftRight, toNat_small two, Nat.shiftRight_eq_div_pow]
    rfl
  have high := toNat_small one
  apply UInt8.toNat_inj.mp
  refine (toNat_shiftLeft_or 2 (by decide) (by omega) (by omega)).trans ?_
  rw [low, high, toNat_ofNat']
  omega

theorem byte_second (two : second < 64) (three : third < 64) :
    (ofNat second &&& 0x0f) <<< 4 ||| ofNat third >>> 2 =
      ofNat ((second * 64 + third) / 4) := by
  have high : (ofNat second &&& 0x0f).toNat = second % 16 := by
    rw [UInt8.toNat_and, toNat_small two]
    exact Nat.and_two_pow_sub_one_eq_mod second 4
  have low : (ofNat third >>> 2).toNat = third / 4 := by
    rw [UInt8.toNat_shiftRight, toNat_small three, Nat.shiftRight_eq_div_pow]
    rfl
  apply UInt8.toNat_inj.mp
  refine (toNat_shiftLeft_or 4 (by decide) (by omega) (by omega)).trans ?_
  rw [low, high, toNat_ofNat']
  omega

theorem byte_third (three : third < 64) (four : fourth < 64) :
    (ofNat third &&& 0x03) <<< 6 ||| ofNat fourth =
      ofNat (third * 64 + fourth) := by
  have high : (ofNat third &&& 0x03).toNat = third % 4 := by
    rw [UInt8.toNat_and, toNat_small three]
    exact Nat.and_two_pow_sub_one_eq_mod third 2
  have low := toNat_small four
  apply UInt8.toNat_inj.mp
  refine (toNat_shiftLeft_or 6 (by decide) (by omega) (by omega)).trans ?_
  rw [low, high, toNat_ofNat']
  omega

def standardByte (value : Nat) : UInt8 := alphabet.getD value 0

theorem tableA2b_standardByte {value : Nat} (small : value < 64) :
    standardByte value ≠ pad ∧ tableA2b (standardByte value) = some (ofNat value) := by
  have table : ∀ value, value < 64 →
      standardByte value ≠ pad ∧ tableA2b (standardByte value) = some (ofNat value) := by
    decide +kernel
  exact table value small

section Scanning

variable {interpreter : Interpreter} {strict : Bool}

theorem scanFrom_digit {scan : Scan} (notPadded : scan.paddingStarted = false) {value : Nat}
    (small : value < 64) (rest : Bytes) :
    scanFrom interpreter strict scan (standardByte value :: rest) =
      scanFrom interpreter strict (scan.digit (ofNat value)) rest := by
  obtain ⟨notPad, isValue⟩ := tableA2b_standardByte small
  have unstopped : ¬ (strict = true ∧ scan.paddingStarted = true) := by
    rw [notPadded]
    exact fun both => Bool.noConfusion both.2
  rw [scanFrom, if_neg notPad, isValue]
  exact if_neg unstopped

theorem scanFrom_one_pad {scan : Scan} (three : scan.quadPos = 3) :
    scanFrom interpreter strict scan [pad] = .ok scan.output := by
  have inside : scan.quadPos ≠ 0 := three ▸ by decide
  have last : scan.finishes := by
    rw [Scan.finishes, three]
    change 2 ≤ 3 ∧ 4 ≤ 3 + (scan.pads + 1)
    omega
  rw [scanFrom, if_pos rfl, if_neg fun all => inside all.2.2, if_pos last,
    if_neg fun more => more.2 rfl]

theorem scanFrom_two_pads {scan : Scan} (two : scan.quadPos = 2) (first : scan.pads = 0) :
    scanFrom interpreter strict scan [pad, pad] = .ok scan.output := by
  have inside : scan.quadPos ≠ 0 := two ▸ by decide
  have notLast : ¬ scan.finishes := by
    rw [Scan.finishes, two, first]
    decide
  have last : scan.padding.finishes := by
    simp [Scan.finishes, Scan.padding, two, first]
  have stillInside : scan.padding.quadPos ≠ 0 := inside
  rw [scanFrom, if_pos rfl, if_neg fun all => inside all.2.2, if_neg notLast, scanFrom,
    if_pos rfl, if_neg fun all => stillInside all.2.2, if_pos last,
    if_neg fun more => more.2 rfl]
  rfl

theorem digits_two (output : Bytes) (one : first < 64) (two : second < 64) :
    ((Scan.between output).digit (ofNat first)).digit (ofNat second) =
      { output := output ++ [ofNat ((first * 64 + second) / 16)]
        leftChar := ofNat second &&& 0x0f, quadPos := 2, pads := 0
        paddingStarted := false } := by
  rw [← byte_first one two]
  rfl

theorem digits_three (output : Bytes) (one : first < 64) (two : second < 64) (three : third < 64) :
    (((Scan.between output).digit (ofNat first)).digit (ofNat second)).digit
        (ofNat third) =
      { output := output ++ [ofNat ((first * 64 + second) / 16),
          ofNat ((second * 64 + third) / 4)]
        leftChar := ofNat third &&& 0x03, quadPos := 3, pads := 0
        paddingStarted := false } := by
  rw [digits_two output one two, ← byte_second two three]
  simp only [Scan.digit, append_assoc, cons_append, nil_append]

theorem digits_four (output : Bytes) (one : first < 64) (two : second < 64)
    (three : third < 64) (four : fourth < 64) :
    ((((Scan.between output).digit (ofNat first)).digit (ofNat second)).digit
        (ofNat third)).digit (ofNat fourth) =
      .between (output ++ [ofNat ((first * 64 + second) / 16),
        ofNat ((second * 64 + third) / 4), ofNat (third * 64 + fourth)]) := by
  rw [digits_three output one two three, ← byte_third three four]
  simp only [Scan.digit, Scan.between, append_assoc, cons_append, nil_append]

/-- Digits that are padded to whole groups are read as `join` puts them together. -/
theorem scanFrom_values {values : List Nat} {count : Nat}
    (small : ∀ value ∈ values, value < 64) (short : count ≤ 2)
    (whole : (values.length + count) % 4 = 0) (output : Bytes) :
    scanFrom interpreter strict (.between output)
        (values.map standardByte ++ replicate count pad) = .ok (output ++ join values) := by
  induction values using Base64Url.groups_induction generalizing output with
  | nil =>
    have none : count = 0 := by
      simp only [length_nil] at whole
      omega
    have nothing : join [] = [] := rfl
    rw [none, nothing, append_nil]
    rfl
  | one first =>
    simp only [length_cons, length_nil] at whole
    omega
  | two first second =>
    simp only [forall_mem_cons] at small
    obtain ⟨one, two, _⟩ := small
    have double : count = 2 := by
      simp only [length_cons, length_nil] at whole
      omega
    simp only [double, map_cons, map_nil, cons_append, nil_append, replicate_succ, replicate_zero]
    rw [scanFrom_digit rfl one, scanFrom_digit rfl two, digits_two output one two,
      scanFrom_two_pads rfl rfl, join]
  | three first second third =>
    simp only [forall_mem_cons] at small
    obtain ⟨one, two, three, _⟩ := small
    have single : count = 1 := by
      simp only [length_cons, length_nil] at whole
      omega
    have top : ofNat ((first * 64 + second) / 16) =
        ofNat ((first * 4096 + second * 64 + third) / 1024) := ofNat_eq_ofNat (by omega)
    have bottom : ofNat ((second * 64 + third) / 4) =
        ofNat ((first * 4096 + second * 64 + third) / 4) := ofNat_eq_ofNat (by omega)
    simp only [single, map_cons, map_nil, cons_append, nil_append, replicate_one]
    rw [scanFrom_digit rfl one, scanFrom_digit rfl two, scanFrom_digit rfl three,
      digits_three output one two three, scanFrom_one_pad rfl, top, bottom, join]
  | four first second third fourth rest ih =>
    simp only [forall_mem_cons] at small
    obtain ⟨one, two, three, four, others⟩ := small
    have restWhole : (rest.length + count) % 4 = 0 := by
      simp only [length_cons] at whole
      omega
    obtain ⟨group, isGroup⟩ :
        ∃ group, group = first * 262144 + second * 4096 + third * 64 + fourth := ⟨_, rfl⟩
    have top : ofNat ((first * 64 + second) / 16) = ofNat (group / 65536) :=
      ofNat_eq_ofNat (by omega)
    have middle : ofNat ((second * 64 + third) / 4) = ofNat (group / 256) :=
      ofNat_eq_ofNat (by omega)
    have bottom : ofNat (third * 64 + fourth) = ofNat group := ofNat_eq_ofNat (by omega)
    simp only [map_cons, cons_append]
    rw [scanFrom_digit rfl one, scanFrom_digit rfl two, scanFrom_digit rfl three,
      scanFrom_digit rfl four, digits_four output one two three four, ih others restWhole, top,
      middle, bottom, append_assoc, join, ← isGroup]

end Scanning

def paddedText (values : List Nat) (count : Nat) : List Nat :=
  (values.map digit).map Char.toNat ++ replicate count '='.toNat

def paddedBytes (values : List Nat) (count : Nat) : Bytes :=
  values.map standardByte ++ replicate count pad

theorem digit_standard {value : Nat} (small : value < 64) :
    (digit value).toNat < 128 ∧
      translate (bytesOf "-_") (bytesOf "+/") [byteOf (digit value)] = [standardByte value] ∧
      alphabet.contains (standardByte value) = true := by
  have table : ∀ value, value < 64 →
      (digit value).toNat < 128 ∧
        translate (bytesOf "-_") (bytesOf "+/") [byteOf (digit value)] = [standardByte value] ∧
        alphabet.contains (standardByte value) = true := by
    decide +kernel
  exact table value small

theorem translate_append (source target left right : Bytes) :
    translate source target (left ++ right) =
      translate source target left ++ translate source target right :=
  map_append

section Padded

variable {values : List Nat} (small : ∀ value ∈ values, value < 64) (count : Nat)

include small

theorem asciiEncode_paddedText :
    asciiEncode (paddedText values count) =
      .ok ((values.map digit).map byteOf ++ replicate count pad) := by
  have ascii : ∀ code ∈ paddedText values count, code < 128 := by
    intro code among
    rcases mem_append.mp among with isDigit | isPadding
    · rw [map_map] at isDigit
      obtain ⟨value, member, rfl⟩ := mem_map.mp isDigit
      exact (digit_standard (small value member)).1
    · rw [eq_of_mem_replicate isPadding]
      decide
  rw [asciiEncode, if_pos ascii, paddedText, map_append, map_map, map_replicate]
  rfl

theorem translate_digits :
    translate (bytesOf "-_") (bytesOf "+/")
        ((values.map digit).map byteOf ++ replicate count pad) = paddedBytes values count := by
  have padding : translate (bytesOf "-_") (bytesOf "+/") (replicate count pad) =
      replicate count pad := by
    rw [translate, map_replicate]
    rfl
  rw [translate_append, padding, paddedBytes, translate, map_map, map_map]
  refine congrArg (· ++ replicate count pad) (map_congr_left ?_)
  intro value member
  exact (cons.inj (digit_standard (small value member)).2.1).1

theorem matchesBase64_paddedBytes (short : count ≤ 2) :
    matchesBase64 (paddedBytes values count) = true := by
  have digits : ∀ byte ∈ values.map standardByte, alphabet.contains byte = true := by
    intro byte among
    obtain ⟨value, member, rfl⟩ := mem_map.mp among
    exact (digit_standard (small value member)).2.2
  have rest : (replicate count pad).dropWhile (fun byte => alphabet.contains byte) =
      replicate count pad := by
    cases count with
    | zero => rfl
    | succ more => exact dropWhile_cons_of_neg (by decide)
  rw [matchesBase64, paddedBytes, dropWhile_append_of_pos digits, rest]
  simpa using short

theorem head_paddedBytes (whole : (values.length + count) % 4 = 0) (short : count ≤ 2) :
    (paddedBytes values count).head? ≠ some pad := by
  cases values with
  | nil =>
    have none : count = 0 := by
      simp only [length_nil] at whole
      omega
    rw [none]
    decide
  | cons value rest =>
    rw [forall_mem_cons] at small
    intro same
    exact (tableA2b_standardByte small.1).1 (Option.some.inj same)

theorem b64decode_paddedText (interpreter : Interpreter) (short : count ≤ 2)
    (whole : (values.length + count) % 4 = 0) :
    b64decode interpreter (bytesOf "-_") (paddedText values count) = .ok (join values) := by
  have scanned (strict : Bool) :
      a2bBase64 interpreter strict (paddedBytes values count) = .ok (join values) := by
    rw [a2bBase64, if_neg fun both => head_paddedBytes small count whole short both.2]
    exact scanFrom_values small short whole []
  have two : ¬ (bytesOf "-_").length ≠ 2 := by decide
  rw [b64decode, Ensures.bind_of_ok (asciiEncode_paddedText small count), if_neg two]
  dsimp only
  rw [translate_digits small count, scanned, scanned, matchesBase64_paddedBytes small count short]
  split <;> rfl

end Padded

theorem asciiDecode_urlsafeB64encode (data : Bytes) :
    asciiDecode (urlsafeB64encode data) =
      .ok ((Base64Url.encode data).map Char.toNat ++
        replicate ((3 - data.length % 3) % 3) '='.toNat) := by
  have table : ∀ char ∈ Base64Url.alphabet,
      char.toNat < 128 ∧
        translate (bytesOf "+/") (bytesOf "-_") [byteOf (Base64.ofUrl char)] = [byteOf char] := by
    decide +kernel
  have inAlphabet := Base64Url.mem_alphabet_of_mem_encode data
  have written : urlsafeB64encode data =
      (Base64Url.encode data).map byteOf ++ replicate ((3 - data.length % 3) % 3) pad := by
    rw [urlsafeB64encode, Base64.encode, Base64.padding, map_append, translate_append,
      map_replicate, translate, translate, map_replicate, map_map, map_map]
    refine congrArg (· ++ _) (map_congr_left ?_)
    intro char member
    exact (cons.inj (table char (inAlphabet char member)).2).1
  have codes : ∀ char ∈ Base64Url.encode data, (byteOf char).toNat = char.toNat := by
    intro char member
    have ascii := (table char (inAlphabet char member)).1
    rw [byteOf, toNat_ofNat']
    omega
  have ascii : ∀ byte ∈ urlsafeB64encode data, byte.toNat < 128 := by
    intro byte among
    rw [written] at among
    rcases mem_append.mp among with isDigit | isPadding
    · obtain ⟨char, member, rfl⟩ := mem_map.mp isDigit
      rw [codes char member]
      exact (table char (inAlphabet char member)).1
    · rw [eq_of_mem_replicate isPadding]
      decide
  rw [asciiDecode, if_pos ascii, written, map_append, map_map, map_replicate]
  exact congrArg (fun text => Except.ok (text ++ _)) (map_congr_left codes)

end XFerry.Python.Binascii
