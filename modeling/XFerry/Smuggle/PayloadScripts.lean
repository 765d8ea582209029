/-
The scripts of SMUGGLE pages that rebuild a payload.

Each script is given by the data that stand in it, and is read as the function that its text
denotes.  The data are letters, digits and a few marks, so that a quoted text is the text
itself.
-/

import XFerry.JavaScript.Text
import XFerry.Ui.TransferTexts

namespace XFerry.SmuggleScript

open List Base64Url Packing

open JavaScript (Text atob hexDigitValue literal unitCodes upperHexDigits upperHexDigits_read)
open UInt8 (ofNat ofNat_toNat toNat_ofNat')

abbrev Bytes := List UInt8

/-- `SMUGGLE_PAYLOAD_ENCODINGS`. -/
inductive PayloadEncoding where
  | base64
  | base64url
  | base32
  | percent
  | reverse
  | xor
  | hex
  | split
  | attrs
  | charcode

def base32Alphabet : List Char := "ABCDEFGHIJKLMNOPQRSTUVWXYZ234567".toList

def base32Values : Nat → Nat → List Nat
  | 0, _ => []
  | count + 1, value => base32Values count (value / 32) ++ [value % 32]

def bigEndianValue (data : Bytes) : Nat :=
  data.foldl (fun value byte => value * 256 + byte.toNat) 0

/-- `base64.b32encode` without its padding: the bits in groups of five, the last of which is
filled up with zeros. -/
def b32encode (data : Bytes) : List Char :=
  let count := (data.length * 8 + 4) / 5
  (base32Values count (bigEndianValue data * 2 ^ (count * 5 - data.length * 8))).map
    fun value => base32Alphabet.getD value 'A'

/-- `f"%{byte:02X}"`. -/
def percentTriplet (byte : UInt8) : List Char :=
  ['%', upperHexDigits.getD (byte.toNat / 16) '0', upperHexDigits.getD (byte.toNat % 16) '0']

/-- `[text[i : i + size] for i in range(0, len(text), size)]`. -/
def chunksOf (size : Nat) (text : List Char) : List (List Char) :=
  (range ((text.length + (size - 1)) / size)).map fun index =>
    (text.drop (index * size)).take size

def splitChunk : Nat := 1024

/-- What stands in an emitted script, or in the element beside it. -/
inductive PayloadScript where
  /-- `var b=atob('…')`, and `a[i]=b.charCodeAt(i)` for each `i`. -/
  | base64 (payload : List Char)
  /-- `var s='…',p=s.length%4`, and `b` of `s` with `'='.repeat(4-p)` unless `p` is zero. -/
  | base64url (payload : List Char)
  /-- `v=(v<<5)|z.indexOf(s[i]);n+=5;if(n>=8){n-=8;o.push((v>>n)&255);v&=(1<<n)-1}`. -/
  | base32 (payload : List Char)
  /-- `var m=s.match(/%[0-9A-F]{2}/g)||[]`, and `a[i]=parseInt(m[i].slice(1),16)`. -/
  | percent (payload : List Char)
  /-- `var b=atob('…'.split('').reverse().join(''))`. -/
  | reverse (payload : List Char)
  /-- `var b=atob('…'),k=…`, and `a[i]=b.charCodeAt(i)^k`. -/
  | xor (payload : List Char) (key : Nat)
  /-- `a=new Uint8Array(h.length/2)`, and `a[i]=parseInt(h.substr(i*2,2),16)`. -/
  | hex (payload : List Char)
  /-- `var p=['…','…'],b=atob(p.join(''))`. -/
  | split (chunks : List (List Char))
  /-- `while(e.dataset[n]!==undefined)d+=e.dataset[n++]`, for an element with the attributes
  `data-0="…" data-1="…"`. -/
  | attrs (attributes : List (Nat × List Char))
  /-- `var a=new Uint8Array([…])`. -/
  | charcode (numbers : List Nat)

open PayloadScript

/-- `_encode_constructor_payload`, with the key that `random.randint(1, 255)` gives. -/
def encodeConstructorPayload (raw : Bytes) (key : UInt8) : PayloadEncoding → PayloadScript
  | .base64 => .base64 (Base64.encode raw)
  | .base64url => .base64url (encode raw)
  | .base32 => .base32 (b32encode raw)
  | .percent => .percent (raw.flatMap percentTriplet)
  | .reverse => .reverse (Base64.encode raw).reverse
  | .xor => .xor (Base64.encode (raw.map (· ^^^ key))) key.toNat
  | .hex => .hex (toHex raw)
  | .split => .split (chunksOf splitChunk (Base64.encode raw))
  | .attrs =>
    .attrs ((chunksOf splitChunk (Base64.encode raw)).zipIdx.map fun entry => (entry.2, entry.1))
  | .charcode => .charcode (raw.map UInt8.toNat)

/-- `a=new Uint8Array(length)`, with `value i` stored at each `i`. -/
def filledArray (length : Nat) (value : Nat → Nat) : Bytes :=
  (range length).map fun index => ofNat (value index)

def charCodeAt (binary : Bytes) (index : Nat) : Nat := (binary.getD index 0).toNat

def charCodes (binary : Bytes) : Bytes := filledArray binary.length (charCodeAt binary)

/-- The state of the base32 loop: `o`, `v` and `n`. -/
structure Base32State where
  output : Bytes
  bits : BitVec 32
  count : Nat

def Base32State.step (state : Base32State) (index : Int) : Base32State :=
  let bits := (state.bits <<< 5) ||| BitVec.ofInt 32 index
  let count := state.count + 5
  if 8 ≤ count then
    { output := state.output ++ [ofNat ((bits.sshiftRight (count - 8)) &&& 255#32).toNat]
      bits := bits &&& ((1#32 <<< (count - 8)) - 1#32)
      count := count - 8 }
  else { output := state.output, bits := bits, count := count }

/-- `text.indexOf(unit)`. -/
def indexOf (text : Text) (unit : UInt16) : Int :=
  if unit ∈ text then (text.idxOf unit : Nat) else -1

def readBase32 (text : Text) : Base32State :=
  text.foldl (fun state unit => state.step (indexOf (literal base32Alphabet) unit))
    { output := [], bits := 0, count := 0 }

/-- `parseInt(text, 16)`, of which an array of bytes stores zero for `NaN`. -/
def parseHexPrefix (value : Nat) : List Nat → Nat
  | [] => value
  | code :: rest =>
    match hexDigitValue code with
    | some digit => parseHexPrefix (value * 16 + digit) rest
    | none => value

def isUpperHex (code : Nat) : Bool := (upperHexDigits.map Char.toNat).contains code

/-- `text.match(/%[0-9A-F]{2}/g)||[]`. -/
def percentMatches : List Nat → List (List Nat)
  | code :: high :: low :: tail =>
    if code = '%'.toNat ∧ isUpperHex high = true ∧ isUpperHex low = true then
      [code, high, low] :: percentMatches tail
    else percentMatches (high :: low :: tail)
  | _ => []

/-- The loop over `e.dataset`, which reads each attribute at most once. -/
def datasetFrom (attributes : List (Nat × List Char)) : Nat → Nat → List Char
  | 0, _ => []
  | fuel + 1, index =>
    match attributes.lookup index with
    | none => []
    | some chunk => chunk ++ datasetFrom attributes fuel (index + 1)

/-- The array `a` that the script leaves, unless `atob` throws. -/
def PayloadScript.evaluate : PayloadScript → Option Bytes
  | .base64 payload => (atob (literal payload)).map charCodes
  | .base64url payload =>
    let text := literal payload
    let rest := text.length % 4
    let padded := text ++ if rest = 0 then [] else literal (replicate (4 - rest) '=')
    (atob (Ui.replaceAll '_' '/' (Ui.replaceAll '-' '+' padded))).map charCodes
  | .base32 payload =>
    some (readBase32 (literal payload)).output
  | .percent payload =>
    let found := percentMatches (unitCodes (literal payload))
    some (filledArray found.length fun index => parseHexPrefix 0 ((found.getD index []).drop 1))
  | .reverse payload => (atob (literal payload).reverse).map charCodes
  | .xor payload key =>
    (atob (literal payload)).map fun binary : Bytes =>
      filledArray binary.length fun index => charCodeAt binary index ^^^ key
  | .hex payload =>
    let codes := unitCodes (literal payload)
    some (filledArray (codes.length / 2) fun index =>
      parseHexPrefix 0 ((codes.drop (index * 2)).take 2))
  | .split chunks => (atob (chunks.map literal).flatten).map charCodes
  | .attrs attributes =>
    (atob (literal (datasetFrom attributes attributes.length 0))).map charCodes
  | .charcode numbers => some (numbers.map ofNat)

variable (data : List UInt8)

theorem filledArray_eq {data : List UInt8} {value : Nat → Nat}
    (stored : ∀ index (inside : index < data.length), ofNat (value index) = data[index]) :
    filledArray data.length value = data := by
  apply ext_getElem
  · rw [filledArray, length_map, length_range]
  · intro index _ inside
    simp only [filledArray, getElem_map, getElem_range]
    exact stored index inside

theorem charCodeAt_eq {data : List UInt8} {index : Nat} (inside : index < data.length) :
    charCodeAt data index = data[index].toNat := by
  rw [charCodeAt, getD_eq_getElem _ _ inside]

theorem charCodes_eq : charCodes data = data := by
  apply filledArray_eq
  intro index inside
  rw [charCodeAt_eq inside, ofNat_toNat]

theorem literal_append (first second : List Char) :
    literal (first ++ second) = literal first ++ literal second := map_append

theorem unitCodes_encode : unitCodes (literal (encode data)) = (encode data).map Char.toNat := by
  have ascii : ∀ char ∈ alphabet, char.toNat < 128 := by decide
  apply JavaScript.unitCodes_literal
  exact fun char member => ascii char (mem_alphabet_of_mem_encode data char member)

theorem standard_encode :
    Ui.replaceAll '_' '/' (Ui.replaceAll '-' '+' (literal (encode data))) =
      literal ((encode data).map Base64.ofUrl) := by
  have table : ∀ digit ∈ alphabet,
      Ui.standardUnit (UInt16.ofNat digit.toNat) = UInt16.ofNat (Base64.ofUrl digit).toNat := by
    decide +kernel
  rw [Ui.replaceAll_standard, literal, literal, map_map, map_map]
  apply map_congr_left
  exact fun digit member => table digit (mem_alphabet_of_mem_encode data digit member)

theorem atob_digits :
    atob (literal ((encode data).map Base64.ofUrl) ++
      literal (replicate ((4 - (encode data).length % 4) % 4) '=')) =
      some data := by
  have length : (literal (encode data)).length = (encode data).length := length_map _
  have count := length_encode data
  rw [← standard_encode, ← length, Ui.atob_padded, unitCodes_encode, Encrypted.b64decode,
    encode_eq_map_split, mapM_digitValue_map]
  · exact congrArg some (join_split data)
  · rw [unitCodes_encode, all_eq_true]
    intro code member
    obtain ⟨char, isChar, rfl⟩ := mem_map.mp member
    exact contains_iff_mem.mpr (mem_map_of_mem (mem_alphabet_of_mem_encode data char isChar))
  · omega

theorem atob_encode : atob (literal (Base64.encode data)) = some data := by
  have count := length_encode data
  have missing : (3 - data.length % 3) % 3 = (4 - (encode data).length % 4) % 4 := by
    have remainder : data.length % 3 = 0 ∨ data.length % 3 = 1 ∨ data.length % 3 = 2 := by omega
    rcases remainder with whole | one | two <;> omega
  rw [Base64.encode, Base64.padding, missing, literal_append]
  exact atob_digits data

theorem evaluate_base64url : (base64url (encode data)).evaluate = some data := by
  have length : (literal (encode data)).length = (encode data).length := length_map _
  have padded : (if (encode data).length % 4 = 0 then []
      else literal (replicate (4 - (encode data).length % 4) '=')) =
      literal (replicate ((4 - (encode data).length % 4) % 4) '=') := by
    split
    · case isTrue whole =>
        rw [whole]
        rfl
    · rw [Nat.mod_eq_of_lt (show 4 - (encode data).length % 4 < 4 by omega)]
  have kept : ∀ count, Ui.replaceAll '_' '/' (Ui.replaceAll '-' '+'
      (literal (replicate count '='))) = literal (replicate count '=') := by
    intro count
    rw [Ui.replaceAll_standard, literal, map_replicate, map_replicate]
    rfl
  unfold evaluate
  dsimp only
  rw [length, padded, Ui.replaceAll, Ui.replaceAll, map_append, map_append]
  change (atob (Ui.replaceAll '_' '/' (Ui.replaceAll '-' '+' _) ++
    Ui.replaceAll '_' '/' (Ui.replaceAll '-' '+' _))).map charCodes = _
  rw [standard_encode, kept, atob_digits]
  exact congrArg some (charCodes_eq data)

theorem evaluate_xor (key : UInt8) :
    (xor (Base64.encode (data.map (· ^^^ key))) key.toNat).evaluate =
      some data := by
  rw [evaluate, atob_encode]
  apply congrArg some
  change filledArray (data.map (· ^^^ key)).length _ = data
  rw [length_map]
  apply filledArray_eq
  intro index inside
  rw [charCodeAt_eq (by rwa [length_map]), getElem_map, ← UInt8.toNat_xor,
    ofNat_toNat, UInt8.xor_assoc, UInt8.xor_self, UInt8.xor_zero]

theorem flatten_slices (size count : Nat) (text : List Char) :
    ((range count).map fun index => (text.drop (index * size)).take size).flatten =
      text.take (count * size) := by
  induction count with
  | zero => rw [Nat.zero_mul, take_zero, range_zero, map_nil, flatten_nil]
  | succ count ih =>
    rw [range_succ, map_append, flatten_append, ih, Nat.succ_mul, take_add]
    simp

theorem flatten_chunksOf {size : Nat} (positive : 0 < size) (text : List Char) :
    (chunksOf size text).flatten = text := by
  have enough : text.length ≤ (text.length + (size - 1)) / size * size := by
    have whole := Nat.div_add_mod (text.length + (size - 1)) size
    have small := Nat.mod_lt (text.length + (size - 1)) positive
    rw [Nat.mul_comm] at whole
    omega
  rw [chunksOf, flatten_slices, take_of_length_le enough]

theorem lookup_zipIdx (chunks : List (List Char)) (start index : Nat) :
    ((chunks.zipIdx start).map fun entry => (entry.2, entry.1)).lookup (start + index) =
      chunks[index]? := by
  induction chunks generalizing start index with
  | nil => rfl
  | cons chunk rest ih =>
    rw [zipIdx_cons, map_cons, lookup_cons]
    cases index with
    | zero => simp
    | succ index =>
      have different : (start + (index + 1) == start) = false := by
        rw [beq_eq_false_iff_ne]
        omega
      have next := ih (start + 1) index
      rw [show start + 1 + index = start + (index + 1) by omega] at next
      rw [different, getElem?_cons_succ, ← next]

theorem datasetFrom_zipIdx (chunks : List (List Char)) (fuel index : Nat)
    (enough : index + fuel = chunks.length) :
    datasetFrom (chunks.zipIdx.map fun entry => (entry.2, entry.1)) fuel index =
      (chunks.drop index).flatten := by
  induction fuel generalizing index with
  | zero =>
    rw [Nat.add_zero] at enough
    rw [enough, drop_length]
    rfl
  | succ fuel ih =>
    have inside : index < chunks.length := by omega
    have found := lookup_zipIdx chunks 0 index
    rw [Nat.zero_add, getElem?_eq_getElem inside] at found
    rw [datasetFrom, found, drop_eq_getElem_cons inside, flatten_cons]
    exact congrArg (chunks[index] ++ ·) (ih (index + 1) (by omega))

theorem toHex_drop (index : Nat) : (toHex data).drop (index * 2) = toHex (data.drop index) := by
  induction data generalizing index with
  | nil => simp [toHex]
  | cons byte rest ih =>
    cases index with
    | zero => rfl
    | succ index =>
      rw [Nat.succ_mul]
      exact ih index

theorem length_toHex : (toHex data).length = data.length * 2 := by
  induction data with
  | nil => rfl
  | cons byte rest ih =>
    rw [toHex, length_cons, length_cons, ih, length_cons]
    omega

theorem parseHexPrefix_pair {high low byte : Nat} (isHigh : hexDigitValue high = some (byte / 16))
    (isLow : hexDigitValue low = some (byte % 16)) : parseHexPrefix 0 [high, low] = byte := by
  simp only [parseHexPrefix, isHigh, isLow]
  omega

theorem hexDigits_read : ∀ value < 16,
    (hexDigits.getD value '0').toNat < 128 ∧
      hexDigitValue (hexDigits.getD value '0').toNat = some value := by
  decide +kernel

theorem toHex_ascii : ∀ char ∈ toHex data, char.toNat < 128 := by
  induction data with
  | nil => exact nofun
  | cons byte rest ih =>
    have small := byte.toNat_lt
    rw [toHex, forall_mem_cons, forall_mem_cons]
    exact ⟨(hexDigits_read _ (by omega)).1, (hexDigits_read _ (by omega)).1, ih⟩

theorem evaluate_hex : (hex (toHex data)).evaluate = some data := by
  have half : data.length * 2 / 2 = data.length := Nat.mul_div_cancel _ (by decide)
  unfold evaluate
  dsimp only
  rw [JavaScript.unitCodes_literal (toHex_ascii data), length_map, length_toHex, half]
  apply congrArg some
  apply filledArray_eq
  intro index inside
  have small := data[index].toNat_lt
  rw [← map_drop, toHex_drop, drop_eq_getElem_cons inside, toHex]
  change ofNat (parseHexPrefix 0 [_, _]) = _
  rw [parseHexPrefix_pair (hexDigits_read _ (by omega)).2 (hexDigits_read _ (by omega)).2,
    ofNat_toNat]

theorem percentMatches_triplets :
    percentMatches ((data.flatMap percentTriplet).map Char.toNat) =
      data.map fun byte => (percentTriplet byte).map Char.toNat := by
  induction data with
  | nil => rfl
  | cons byte rest ih =>
    have small := byte.toNat_lt
    have high := (upperHexDigits_read (byte.toNat / 16) (by omega)).1
    have low := (upperHexDigits_read (byte.toNat % 16) (by omega)).1
    rw [flatMap_cons, map_append, map_cons, ← ih]
    simp only [percentTriplet, map_cons, map_nil, cons_append, nil_append]
    rw [percentMatches, if_pos ⟨rfl, high, low⟩]

theorem percentTriplets_ascii : ∀ char ∈ data.flatMap percentTriplet, char.toNat < 128 := by
  intro char member
  obtain ⟨byte, _, isChar⟩ := mem_flatMap.mp member
  have small := byte.toNat_lt
  simp only [percentTriplet, mem_cons, not_mem_nil, or_false] at isChar
  rcases isChar with rfl | rfl | rfl
  · decide
  · exact (upperHexDigits_read _ (by omega)).2.1
  · exact (upperHexDigits_read _ (by omega)).2.1

theorem evaluate_percent : (percent (data.flatMap percentTriplet)).evaluate = some data := by
  unfold evaluate
  dsimp only
  rw [JavaScript.unitCodes_literal (percentTriplets_ascii data), percentMatches_triplets,
    length_map]
  apply congrArg some
  apply filledArray_eq
  intro index inside
  have small := data[index].toNat_lt
  rw [getD_eq_getElem _ _ (by rwa [length_map]), getElem_map]
  change ofNat (parseHexPrefix 0 [_, _]) = _
  rw [parseHexPrefix_pair (upperHexDigits_read _ (by omega)).2.2
    (upperHexDigits_read _ (by omega)).2.2, ofNat_toNat]

theorem bigEndian_value : bigEndian data.length (bigEndianValue data) = data := by
  induction data using reverseRecOn with
  | nil => rfl
  | append_singleton rest last ih =>
    have value : bigEndianValue (rest ++ [last]) = bigEndianValue rest * 256 + last.toNat := by
      rw [bigEndianValue, foldl_append]
      rfl
    have small := last.toNat_lt
    have front : bigEndianValue (rest ++ [last]) / 256 ^ 1 = bigEndianValue rest := by omega
    have back : ofNat (bigEndianValue (rest ++ [last])) = last := by
      apply UInt8.toNat_inj.mp
      rw [toNat_ofNat']
      omega
    rw [length_append, length_singleton, bigEndian_add, front, ih]
    simp only [bigEndian, Nat.pow_zero, Nat.div_one, back]

theorem indexOf_digit : ∀ value < 32, indexOf (literal base32Alphabet)
    (UInt16.ofNat (base32Alphabet.getD value 'A').toNat) = value := by
  decide +kernel

variable {count : Nat}

theorem joined_bits (few : count < 8) (value : Nat) :
    (BitVec.ofNat 32 (value / 32 % 2 ^ count) <<< 5) ||| BitVec.ofInt 32 (value % 32 : Nat) =
      BitVec.ofNat 32 (value % 2 ^ (count + 5)) := by
  have low : value % 32 < 2 ^ 5 := Nat.mod_lt _ (by decide)
  have high : value / 32 % 2 ^ count < 2 ^ 7 :=
    Nat.lt_of_lt_of_le (Nat.mod_lt _ (Nat.two_pow_pos count))
      (Nat.pow_le_pow_right (by decide) (by omega))
  have whole : value % 2 ^ (count + 5) = 2 ^ 5 * (value / 32 % 2 ^ count) + value % 32 := by
    rw [Nat.add_comm count, Nat.pow_add, Nat.mod_mul, Nat.add_comm]
  generalize value / 32 % 2 ^ count = upper at high whole ⊢
  have shifted : (BitVec.ofNat 32 upper <<< 5).toNat = 2 ^ 5 * upper := by
    rw [BitVec.toNat_shiftLeft, BitVec.toNat_ofNat, Nat.shiftLeft_eq]
    omega
  have lowest : (BitVec.ofInt 32 (value % 32 : Nat)).toNat = value % 32 := by
    rw [BitVec.ofInt_natCast, BitVec.toNat_ofNat]
    omega
  apply BitVec.eq_of_toNat_eq
  rw [BitVec.toNat_or, shifted, lowest, ← Nat.two_pow_add_eq_or_of_lt low, BitVec.toNat_ofNat,
    whole]
  exact (Nat.mod_eq_of_lt (by omega)).symm

theorem low_byte (enough : 3 ≤ count) (few : count < 8) (value : Nat) :
    ofNat (((BitVec.ofNat 32 (value % 2 ^ (count + 5))).sshiftRight (count - 3)) &&&
      255#32).toNat = ofNat (value / 2 ^ (count - 3)) := by
  have small : value % 2 ^ (count + 5) < 2 ^ 12 :=
    Nat.lt_of_lt_of_le (Nat.mod_lt _ (Nat.two_pow_pos _))
      (Nat.pow_le_pow_right (by decide) (by omega))
  have stored : (BitVec.ofNat 32 (value % 2 ^ (count + 5))).toNat = value % 2 ^ (count + 5) := by
    rw [BitVec.toNat_ofNat]
    omega
  have positive : (BitVec.ofNat 32 (value % 2 ^ (count + 5))).msb = false := by
    rw [BitVec.msb_eq_false_iff_two_mul_lt, stored]
    omega
  have parts : value % 2 ^ (count + 5) / 2 ^ (count - 3) = value / 2 ^ (count - 3) % 2 ^ 8 := by
    rw [show count + 5 = count - 3 + 8 by omega, Nat.pow_add, Nat.mod_mul_right_div_self]
  have mask : (255#32).toNat = 2 ^ 8 - 1 := rfl
  rw [BitVec.sshiftRight_eq_of_msb_false positive, BitVec.toNat_and, BitVec.toNat_ushiftRight,
    stored, Nat.shiftRight_eq_div_pow, parts, mask, Nat.and_two_pow_sub_one_eq_mod, Nat.mod_mod]
  apply UInt8.toNat_inj.mp
  rw [toNat_ofNat', toNat_ofNat', Nat.mod_mod]

theorem kept_bits (enough : 3 ≤ count) (few : count < 8) (value : Nat) :
    BitVec.ofNat 32 (value % 2 ^ (count + 5)) &&& ((1#32 <<< (count - 3)) - 1#32) =
      BitVec.ofNat 32 (value % 2 ^ (count - 3)) := by
  have masks : ∀ shift < 5, ((1#32 <<< shift) - 1#32).toNat = 2 ^ shift - 1 := by decide
  have small : value % 2 ^ (count + 5) < 2 ^ 32 :=
    Nat.lt_of_lt_of_le (Nat.mod_lt _ (Nat.two_pow_pos _))
      (Nat.pow_le_pow_right (by decide) (by omega))
  have divides : 2 ^ (count - 3) ∣ 2 ^ (count + 5) := Nat.pow_dvd_pow 2 (by omega)
  have lower : value % 2 ^ (count - 3) < 2 ^ 32 :=
    Nat.lt_of_lt_of_le (Nat.mod_lt _ (Nat.two_pow_pos _))
      (Nat.pow_le_pow_right (by decide) (by omega))
  apply BitVec.eq_of_toNat_eq
  rw [BitVec.toNat_and, masks _ (by omega), BitVec.toNat_ofNat, BitVec.toNat_ofNat,
    Nat.mod_eq_of_lt small, Nat.and_two_pow_sub_one_eq_mod, Nat.mod_mod_of_dvd _ divides]
  exact (Nat.mod_eq_of_lt lower).symm

/-- The state of the loop after the first digits of a number: the bits it has read make the
bytes that are pushed, and fewer than eight bits that are left. -/
def stateAfter (count value : Nat) : Base32State :=
  { output := bigEndian (5 * count / 8) (value / 2 ^ (5 * count % 8))
    bits := BitVec.ofNat 32 (value % 2 ^ (5 * count % 8))
    count := 5 * count % 8 }

theorem step_stateAfter (count value : Nat) :
    (stateAfter count (value / 32)).step (value % 32 : Nat) = stateAfter (count + 1) value := by
  have few : 5 * count % 8 < 8 := Nat.mod_lt _ (by decide)
  have moved : value / 32 / 2 ^ (5 * count % 8) = value / 2 ^ (5 * count % 8 + 5) := by
    rw [Nat.div_div_eq_div_mul, Nat.pow_add, Nat.mul_comm]
  unfold stateAfter Base32State.step
  dsimp only
  rw [joined_bits few, moved]
  by_cases enough : 3 ≤ 5 * count % 8
  · have width : 5 * (count + 1) / 8 = 5 * count / 8 + 1 := by omega
    have left : 5 * (count + 1) % 8 = 5 * count % 8 - 3 := by omega
    have shift : 5 * count % 8 + 5 - 8 = 5 * count % 8 - 3 := by omega
    have front : value / 2 ^ (5 * count % 8 - 3) / 256 ^ 1 = value / 2 ^ (5 * count % 8 + 5) := by
      rw [show 256 ^ 1 = 2 ^ 8 from rfl, Nat.div_div_eq_div_mul, ← Nat.pow_add]
      congr 2
      omega
    rw [if_pos (by omega), width, left, shift, low_byte enough few, kept_bits enough few,
      bigEndian_add, front]
    simp only [bigEndian, Nat.pow_zero, Nat.div_one]
  · have width : 5 * (count + 1) / 8 = 5 * count / 8 := by omega
    have left : 5 * (count + 1) % 8 = 5 * count % 8 + 5 := by omega
    rw [if_neg (by omega), width, left]

theorem read_base32Values (count value : Nat) :
    readBase32 (literal ((base32Values count value).map fun digit =>
      base32Alphabet.getD digit 'A')) = stateAfter count value := by
  unfold readBase32
  induction count generalizing value with
  | zero =>
    simp only [stateAfter, Nat.mul_zero, Nat.zero_mod, Nat.pow_zero, Nat.mod_one]
    rfl
  | succ count ih =>
    have digit := indexOf_digit (value % 32) (Nat.mod_lt _ (by decide))
    rw [base32Values, map_append, literal_append, foldl_append, ih, ← step_stateAfter, ← digit]
    rfl

theorem evaluate_base32 : (base32 (b32encode data)).evaluate = some data := by
  have width : 5 * ((data.length * 8 + 4) / 5) / 8 = data.length := by omega
  have left : 5 * ((data.length * 8 + 4) / 5) % 8 =
      (data.length * 8 + 4) / 5 * 5 - data.length * 8 := by omega
  unfold evaluate b32encode
  dsimp only
  rw [read_base32Values]
  apply congrArg some
  unfold stateAfter
  dsimp only
  rw [width, left, Nat.mul_div_cancel _ (Nat.two_pow_pos _), bigEndian_value]

/-- The texts that stand in quotes in what is emitted. -/
def PayloadScript.quoted : PayloadScript → List (List Char)
  | .base64 payload => [payload]
  | .base64url payload => [payload]
  | .base32 payload => [payload]
  | .percent payload => [payload]
  | .reverse payload => [payload]
  | .xor payload _ => [payload]
  | .hex payload => [payload]
  | .split chunks => chunks
  | .attrs attributes => attributes.map Prod.snd
  | .charcode _ => []

/-- A character that stands for itself in quotes, in a script as in an attribute. -/
def StandsForItself (char : Char) : Prop := char.isAlphanum = true ∨ char ∈ "+/=%-_".toList

instance (char : Char) : Decidable (StandsForItself char) := by
  unfold StandsForItself
  infer_instance

theorem standsForItself_encode : ∀ char ∈ Base64.encode data, StandsForItself char := by
  have table : ∀ digit ∈ alphabet, StandsForItself (Base64.ofUrl digit) := by
    decide +kernel
  intro char member
  rcases mem_append.mp member with inDigits | isPadding
  · obtain ⟨digit, isDigit, rfl⟩ := mem_map.mp inDigits
    exact table digit (mem_alphabet_of_mem_encode data digit isDigit)
  · rw [eq_of_mem_replicate isPadding]
    decide

theorem mem_of_mem_chunksOf {size : Nat} {text chunk : List Char}
    (member : chunk ∈ chunksOf size text) : ∀ char ∈ chunk, char ∈ text := by
  obtain ⟨index, _, rfl⟩ := mem_map.mp member
  exact fun char isChar => mem_of_mem_drop (mem_of_mem_take isChar)

theorem quoted_standsForItself (raw : List UInt8) (key : UInt8) (encoding : PayloadEncoding) :
    ∀ text ∈ (encodeConstructorPayload raw key encoding).quoted,
      ∀ char ∈ text, StandsForItself char := by
  have hexDigit : ∀ value < 16, StandsForItself (hexDigits.getD value '0') ∧
      StandsForItself (upperHexDigits.getD value '0') := by decide +kernel
  have base32Digit : ∀ digit, StandsForItself (base32Alphabet.getD digit 'A') := by
    intro digit
    by_cases inside : digit < base32Alphabet.length
    · have table : ∀ char ∈ base32Alphabet, StandsForItself char := by decide +kernel
      rw [getD_eq_getElem _ _ inside]
      exact table _ (getElem_mem inside)
    · rw [getD_eq_default _ _ (by omega)]
      decide
  cases encoding with
  | base64 => exact forall_mem_singleton.mpr (standsForItself_encode raw)
  | base64url =>
    have table : ∀ digit ∈ alphabet, StandsForItself digit := by decide +kernel
    refine forall_mem_singleton.mpr fun char member => ?_
    exact table char (mem_alphabet_of_mem_encode raw char member)
  | base32 =>
    refine forall_mem_singleton.mpr fun char member => ?_
    obtain ⟨digit, _, rfl⟩ := mem_map.mp member
    exact base32Digit digit
  | percent =>
    refine forall_mem_singleton.mpr fun char member => ?_
    obtain ⟨byte, _, isChar⟩ := mem_flatMap.mp member
    have small := byte.toNat_lt
    simp only [percentTriplet, mem_cons, not_mem_nil, or_false] at isChar
    rcases isChar with rfl | rfl | rfl
    · decide
    · exact (hexDigit _ (by omega)).2
    · exact (hexDigit _ (by omega)).2
  | reverse =>
    refine forall_mem_singleton.mpr fun char member => ?_
    exact standsForItself_encode raw char (mem_reverse.mp member)
  | xor => exact forall_mem_singleton.mpr (standsForItself_encode _)
  | hex =>
    refine forall_mem_singleton.mpr ?_
    induction raw with
    | nil => exact forall_mem_nil _
    | cons byte rest ih =>
      have small := byte.toNat_lt
      rw [toHex, forall_mem_cons, forall_mem_cons]
      exact ⟨(hexDigit _ (by omega)).1, (hexDigit _ (by omega)).1, ih⟩
  | split =>
    intro text isChunk char member
    exact standsForItself_encode raw char (mem_of_mem_chunksOf isChunk char member)
  | attrs =>
    intro text isValue char member
    obtain ⟨entry, isEntry, rfl⟩ := mem_map.mp isValue
    obtain ⟨chunk, isChunk, rfl⟩ := mem_map.mp isEntry
    exact standsForItself_encode raw char
      (mem_of_mem_chunksOf (fst_mem_of_mem_zipIdx isChunk) char member)
  | charcode => exact forall_mem_nil _

/-- Whatever the payload, the key and the encoding, the texts in quotes are read as they
stand, and the script rebuilds the payload. -/
theorem payload_rebuilt (raw : List UInt8) (key : UInt8) (encoding : PayloadEncoding) :
    (∀ text ∈ (encodeConstructorPayload raw key encoding).quoted,
        ∀ char ∈ text, StandsForItself char) ∧
      (encodeConstructorPayload raw key encoding).evaluate = some raw := by
  have decoded : (atob (literal (Base64.encode raw))).map charCodes = some raw := by
    rw [atob_encode]
    exact congrArg some (charCodes_eq raw)
  have whole := flatten_chunksOf (show 0 < splitChunk by decide) (Base64.encode raw)
  refine ⟨quoted_standsForItself raw key encoding, ?_⟩
  cases encoding with
  | base64 => exact decoded
  | base64url => exact evaluate_base64url raw
  | base32 => exact evaluate_base32 raw
  | percent => exact evaluate_percent raw
  | reverse =>
    have turned : (literal (Base64.encode raw).reverse).reverse = literal (Base64.encode raw) := by
      rw [literal, map_reverse, reverse_reverse]
      rfl
    rw [encodeConstructorPayload, evaluate, turned]
    exact decoded
  | xor => exact evaluate_xor raw key
  | hex => exact evaluate_hex raw
  | split =>
    have joined : ((chunksOf splitChunk (Base64.encode raw)).map literal).flatten =
        literal (Base64.encode raw) := by
      rw [← whole, literal, map_flatten, whole]
      rfl
    rw [encodeConstructorPayload, evaluate, joined]
    exact decoded
  | attrs =>
    rw [encodeConstructorPayload, evaluate, length_map, length_zipIdx,
      datasetFrom_zipIdx _ _ 0 (Nat.zero_add _), drop_zero, whole]
    exact decoded
  | charcode =>
    rw [encodeConstructorPayload, evaluate, map_map]
    apply congrArg some
    exact map_id'' (fun byte => ofNat_toNat) raw

end XFerry.SmuggleScript
