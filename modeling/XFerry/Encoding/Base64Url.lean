/-
Unpadded base64url text, and padded base64 text, which differs from it in two digits.
-/

import XFerry.Lists

namespace XFerry.Base64Url

open List

open UInt8 (ofNat ofNat_toNat toNat_inj toNat_ofNat')

def alphabet : List Char :=
  "ABCDEFGHIJKLMNOPQRSTUVWXYZabcdefghijklmnopqrstuvwxyz0123456789-_".toList

def digit (value : Nat) : Char := alphabet.getD (value % 64) 'A'

/-- `b64url_encode`: three bytes make four digits, a shorter last group makes
one digit more than it has bytes. -/
def encode : List UInt8 → List Char
  | first :: second :: third :: rest =>
    let group := first.toNat * 65536 + second.toNat * 256 + third.toNat
    [digit (group / 262144), digit (group / 4096), digit (group / 64), digit group] ++
      encode rest
  | [first, second] =>
    let group := first.toNat * 1024 + second.toNat * 4
    [digit (group / 4096), digit (group / 64), digit group]
  | [first] =>
    let group := first.toNat * 16
    [digit (group / 64), digit group]
  | [] => []

def digitValue (code : Nat) : Option Nat :=
  let position := (alphabet.map Char.toNat).idxOf code
  if position < 64 then some position else none

/-- What `base64.b64decode` makes of digits, whose last bits it may drop. -/
def join : List Nat → List UInt8
  | first :: second :: third :: fourth :: rest =>
    let group := first * 262144 + second * 4096 + third * 64 + fourth
    [ofNat (group / 65536), ofNat (group / 256), ofNat group] ++ join rest
  | [first, second, third] =>
    let group := first * 4096 + second * 64 + third
    [ofNat (group / 1024), ofNat (group / 4)]
  | [first, second] => [ofNat ((first * 64 + second) / 16)]
  | _ => []

/-- `b64url_decode` of a text given by its code points.  Only canonical text is
accepted. -/
def decode (text : List Nat) : Option (List UInt8) :=
  match text.mapM digitValue with
  | none => none
  | some digits =>
    if digits.length % 4 = 1 then none
    else if (encode (join digits)).map Char.toNat = text then some (join digits)
    else none

theorem length_encode (data : List UInt8) : (encode data).length = (4 * data.length + 2) / 3 := by
  fun_induction encode data with
  | case1 first second third rest group ih =>
    simp only [length_append, length_cons, length_nil, ih]
    omega
  | case2 first second => simp
  | case3 first => simp
  | case4 => simp

theorem digitValue_digit (value : Nat) : digitValue (digit value).toNat = some (value % 64) := by
  have table : ∀ small, small < 64 →
      digitValue ((alphabet.getD small 'A').toNat) = some small := by decide +kernel
  exact table (value % 64) (Nat.mod_lt _ (by decide))

theorem mapM_digitValue_map (values : List Nat) :
    ((values.map digit).map Char.toNat).mapM digitValue = some (values.map (· % 64)) := by
  induction values with
  | nil => rfl
  | cons value rest ih =>
    rw [map_cons, map_cons, mapM_cons, digitValue_digit, ih]
    rfl

/-- The digits of the groups that `encode` makes. -/
def split : List UInt8 → List Nat
  | first :: second :: third :: rest =>
    let group := first.toNat * 65536 + second.toNat * 256 + third.toNat
    [group / 262144, group / 4096, group / 64, group] ++ split rest
  | [first, second] =>
    let group := first.toNat * 1024 + second.toNat * 4
    [group / 4096, group / 64, group]
  | [first] =>
    let group := first.toNat * 16
    [group / 64, group]
  | [] => []

theorem encode_eq_map_split (data : List UInt8) : encode data = (split data).map digit := by
  fun_induction encode data with
  | case1 first second third rest group ih =>
    rw [ih, split, map_append]
    rfl
  | case2 first second => rfl
  | case3 first => rfl
  | case4 => rfl

theorem join_split (data : List UInt8) : join ((split data).map (· % 64)) = data := by
  fun_induction split data with
  | case1 first second third rest group ih =>
    have one := first.toNat_lt
    have two := second.toNat_lt
    have three := third.toNat_lt
    have whole : group / 262144 % 64 * 262144 + group / 4096 % 64 * 4096 +
        group / 64 % 64 * 64 + group % 64 = group := by omega
    simp only [map_cons, cons_append, nil_append, join, whole, ih]
    have top : group / 65536 = first.toNat := by omega
    have middle : ofNat (group / 256) = second := by
      apply UInt8.toNat_inj.mp
      rw [toNat_ofNat']
      omega
    have bottom : ofNat group = third := by
      apply UInt8.toNat_inj.mp
      rw [toNat_ofNat']
      omega
    rw [top, middle, bottom, ofNat_toNat]
  | case2 first second group =>
    have one := first.toNat_lt
    have two := second.toNat_lt
    have whole : group / 4096 % 64 * 4096 + group / 64 % 64 * 64 + group % 64 = group := by omega
    simp only [map_cons, map_nil, join, whole]
    have top : group / 1024 = first.toNat := by omega
    have bottom : ofNat (group / 4) = second := by
      apply UInt8.toNat_inj.mp
      rw [toNat_ofNat']
      omega
    rw [top, bottom, ofNat_toNat]
  | case3 first group =>
    have one := first.toNat_lt
    have whole : (group / 64 % 64 * 64 + group % 64) / 16 = first.toNat := by omega
    simp only [map_cons, map_nil, join, whole, ofNat_toNat]
  | case4 => rfl

/-- What `encode` makes is decoded to what it was made of. -/
theorem decode_encode (data : List UInt8) : decode ((encode data).map Char.toNat) = some data := by
  have digits : ((encode data).map Char.toNat).mapM digitValue =
      some ((split data).map (· % 64)) := by
    rw [encode_eq_map_split, mapM_digitValue_map]
  have length : ((split data).map (· % 64)).length = (4 * data.length + 2) / 3 := by
    rw [length_map, ← length_encode, encode_eq_map_split, length_map]
  have notOne : (4 * data.length + 2) / 3 % 4 ≠ 1 := by omega
  unfold decode
  simp only [digits, length, if_neg notOne, join_split, if_true]

theorem digit_mem_alphabet (value : Nat) : digit value ∈ alphabet := by
  have inside : value % 64 < alphabet.length := Nat.mod_lt _ (by decide)
  rw [digit, getD_eq_getElem _ _ inside]
  exact getElem_mem inside

theorem mem_alphabet_of_mem_encode (data : List UInt8) : ∀ char ∈ encode data, char ∈ alphabet := by
  rw [encode_eq_map_split, forall_mem_map]
  exact fun value _ => digit_mem_alphabet value

theorem decode_eq_some {text : List Nat} {data : List UInt8} :
    decode text = some data ↔ text = (encode data).map Char.toNat := by
  constructor
  · intro decoded
    unfold decode at decoded
    split at decoded
    · cases decoded
    split at decoded
    · cases decoded
    split at decoded
    · case isTrue canonical =>
        cases decoded
        exact canonical.symm
    · cases decoded
  · rintro rfl
    exact decode_encode data

theorem exists_values {text : List Nat} (digits : ∀ code ∈ text, code ∈ alphabet.map Char.toNat) :
    ∃ values : List Nat, (∀ value ∈ values, value < 64) ∧
      text = (values.map digit).map Char.toNat := by
  induction text with
  | nil => exact ⟨[], by simp, rfl⟩
  | cons code rest ih =>
    rw [forall_mem_cons] at digits
    obtain ⟨values, small, same⟩ := ih digits.2
    obtain ⟨char, inAlphabet, isChar⟩ := mem_map.mp digits.1
    have inside : alphabet.idxOf char < 64 := idxOf_lt_length_of_mem inAlphabet
    have back : digit (alphabet.idxOf char) = char := by
      rw [digit, Nat.mod_eq_of_lt inside, getD_eq_getElem _ _ (idxOf_lt_length_of_mem inAlphabet),
        getElem_idxOf]
    refine ⟨alphabet.idxOf char :: values, ?_, ?_⟩
    · rw [forall_mem_cons]
      exact ⟨inside, small⟩
    · rw [map_cons, map_cons, back, isChar, same]

/-- Induction over the groups that `join` takes, with what can be left at the end. -/
theorem groups_induction {motive : List Nat → Prop} (nil : motive [])
    (one : ∀ first, motive [first]) (two : ∀ first second, motive [first, second])
    (three : ∀ first second third, motive [first, second, third])
    (four : ∀ first second third fourth rest, motive rest →
      motive (first :: second :: third :: fourth :: rest)) :
    ∀ digits, motive digits
  | [] => nil
  | [first] => one first
  | [first, second] => two first second
  | [first, second, third] => three first second third
  | first :: second :: third :: fourth :: rest =>
    four first second third fourth rest (groups_induction nil one two three four rest)

/-- What the last digit has in the bits that `join` drops. -/
def trailingBits : List Nat → Nat
  | _ :: _ :: _ :: _ :: rest => trailingBits rest
  | [_, _, third] => third % 4
  | [_, second] => second % 16
  | _ => 0

theorem digit_eq_digit {left right : Nat} : digit left = digit right ↔ left % 64 = right % 64 := by
  constructor
  · intro same
    have values := congrArg (fun char => digitValue char.toNat) same
    rw [digitValue_digit, digitValue_digit] at values
    exact Option.some.inj values
  · intro same
    rw [digit, same, digit]

/-- The digits of a text are those of its bytes if there is nothing in the bits that no
byte takes. -/
theorem encode_join {digits : List Nat} (small : ∀ value ∈ digits, value < 64)
    (notOne : digits.length % 4 ≠ 1) :
    encode (join digits) = digits.map digit ↔ trailingBits digits = 0 := by
  induction digits using groups_induction with
  | nil => exact iff_of_true rfl rfl
  | one first => simp at notOne
  | two first second =>
    simp only [forall_mem_cons] at small
    obtain ⟨one, two, _⟩ := small
    have byte : (ofNat ((first * 64 + second) / 16)).toNat * 16 =
        first * 64 + second - second % 16 := by
      rw [toNat_ofNat']
      omega
    have top : digit ((first * 64 + second - second % 16) / 64) = digit first :=
      digit_eq_digit.mpr (by omega)
    simp only [join, encode, byte, map_cons, map_nil, top, cons.injEq, true_and, and_true,
      trailingBits, digit_eq_digit]
    omega
  | three first second third =>
    simp only [forall_mem_cons] at small
    obtain ⟨one, two, three, _⟩ := small
    have bytes : (ofNat ((first * 4096 + second * 64 + third) / 1024)).toNat * 1024 +
        (ofNat ((first * 4096 + second * 64 + third) / 4)).toNat * 4 =
          first * 4096 + second * 64 + third - third % 4 := by
      rw [toNat_ofNat', toNat_ofNat']
      omega
    have top : digit ((first * 4096 + second * 64 + third - third % 4) / 4096) = digit first :=
      digit_eq_digit.mpr (by omega)
    have middle : digit ((first * 4096 + second * 64 + third - third % 4) / 64) = digit second :=
      digit_eq_digit.mpr (by omega)
    simp only [join, encode, bytes, map_cons, map_nil, top, middle, cons.injEq, true_and, and_true,
      trailingBits, digit_eq_digit]
    omega
  | four first second third fourth rest ih =>
    simp only [forall_mem_cons] at small
    obtain ⟨one, two, three, four, others⟩ := small
    have restLength : rest.length % 4 ≠ 1 := by
      simp only [length_cons] at notOne
      omega
    obtain ⟨group, isGroup⟩ :
        ∃ group, group = first * 262144 + second * 4096 + third * 64 + fourth := ⟨_, rfl⟩
    have whole : (ofNat (group / 65536)).toNat * 65536 +
        (ofNat (group / 256)).toNat * 256 + (ofNat group).toNat = group := by
      rw [toNat_ofNat', toNat_ofNat', toNat_ofNat']
      omega
    have top : digit (group / 262144) = digit first := digit_eq_digit.mpr (by omega)
    have upper : digit (group / 4096) = digit second := digit_eq_digit.mpr (by omega)
    have lower : digit (group / 64) = digit third := digit_eq_digit.mpr (by omega)
    have bottom : digit group = digit fourth := digit_eq_digit.mpr (by omega)
    simp only [join, ← isGroup, cons_append, nil_append, encode, whole, map_cons, top, upper,
      lower, bottom, cons.injEq, true_and, trailingBits]
    exact ih others restLength

end XFerry.Base64Url

namespace XFerry.Base64

def ofUrl (digit : Char) : Char := if digit = '-' then '+' else if digit = '_' then '/' else digit

def padding (data : List UInt8) : List Char := List.replicate ((3 - data.length % 3) % 3) '='

/-- `base64.b64encode`. -/
def encode (data : List UInt8) : List Char := (Base64Url.encode data).map ofUrl ++ padding data

/-- The code of the base64url digit, where the digits of that alphabet alone stand for
nothing. -/
def toUrl (code : Nat) : Nat :=
  if code = '+'.toNat then '-'.toNat
  else if code = '/'.toNat then '_'.toNat
  else if code = '-'.toNat ∨ code = '_'.toNat then 0
  else code

/-- `base64.b64decode` with `validate`, of text that is the encoding of what it decodes
to. -/
def decode (text : List Nat) : Option (List UInt8) :=
  match Base64Url.decode ((text.takeWhile (· ≠ '='.toNat)).map toUrl) with
  | none => none
  | some data => if (encode data).map Char.toNat = text then some data else none

theorem toUrl_ofUrl : ∀ digit ∈ Base64Url.alphabet,
    ofUrl digit ≠ '=' ∧ toUrl (ofUrl digit).toNat = digit.toNat := by
  decide +kernel

theorem decode_encode (data : List UInt8) : decode ((encode data).map Char.toNat) = some data := by
  have each : ∀ digit ∈ Base64Url.encode data, digit ∈ Base64Url.alphabet :=
    Base64Url.mem_alphabet_of_mem_encode data
  have digits : ((encode data).map Char.toNat).takeWhile (· ≠ '='.toNat) =
      ((Base64Url.encode data).map ofUrl).map Char.toNat := by
    rw [encode, List.map_append, List.takeWhile_append_of_pos]
    · cases length : (3 - data.length % 3) % 3 with
      | zero => simp [padding, length]
      | succ missing => simp [padding, length, List.replicate_succ]
    · intro code member
      obtain ⟨digit, inDigits, rfl⟩ := List.mem_map.mp member
      obtain ⟨plain, inPlain, rfl⟩ := List.mem_map.mp inDigits
      have different := (toUrl_ofUrl plain (each plain inPlain)).1
      simpa using fun same => different (Char.toNat_inj.mp same)
  have back : (((Base64Url.encode data).map ofUrl).map Char.toNat).map toUrl =
      (Base64Url.encode data).map Char.toNat := by
    rw [List.map_map, List.map_map]
    exact List.map_congr_left fun digit member => (toUrl_ofUrl digit (each digit member)).2
  rw [decode, digits, back, Base64Url.decode_encode]
  exact if_pos rfl

theorem decode_eq_some {text : List Nat} {data : List UInt8} :
    decode text = some data ↔ text = (encode data).map Char.toNat := by
  constructor
  · intro decoded
    unfold decode at decoded
    split at decoded
    · cases decoded
    split at decoded
    · case isTrue canonical =>
        cases decoded
        exact canonical.symm
    · cases decoded
  · rintro rfl
    exact decode_encode data

end XFerry.Base64
