/-
Decoding of UTF-8 inverts encoding, and encoding inverts decoding.
-/

import XFerry.Python.Text
import XFerry.Python.TextLemmas

namespace XFerry.Python

open List

open UInt8 (ofNat ofNat_toNat toNat_ofNat')

variable {code : Nat}

theorem encode_cons {codes : List Nat} {first rest : Bytes}
    (here : encodePoint code = some first) (later : encode codes = some rest) :
    encode (code :: codes) = some (first ++ rest) := by
  unfold encode at later ⊢
  obtain ⟨parts, read, rfl⟩ := Option.map_eq_some_iff.mp later
  rw [mapM_cons, here, read]
  rfl

variable {data : Bytes}

theorem encode_cons_eq_some {codes : List Nat} (encoded : encode (code :: codes) = some data) :
    ∃ first rest, encodePoint code = some first ∧ encode codes = some rest ∧
      data = first ++ rest := by
  unfold encode at encoded ⊢
  obtain ⟨parts, read, rfl⟩ := Option.map_eq_some_iff.mp encoded
  simp only [mapM_cons, bind, Option.bind_eq_some_iff, pure, Option.some.injEq] at read
  obtain ⟨first, here, others, later, rfl⟩ := read
  exact ⟨first, others.flatten, here, by rw [later]; rfl, flatten_cons⟩

namespace Utf8

variable {rest : Bytes}

theorem decodeFrom_start {value : Nat} (small : value < 256) :
    decodeFrom none (ofNat value :: rest) =
      (enter value).1 ++ decodeFrom (enter value).2 rest := by
  rw [decodeFrom, toNat_ofNat', Nat.mod_eq_of_lt (show value < 2 ^ 8 from small)]

theorem decodeFrom_last {low high bits value code : Nat} (small : value < 256)
    (within : low ≤ value ∧ value ≤ high) (whole : bits * 64 + (value - 0x80) = code) :
    decodeFrom (some { owed := 1, low := low, high := high, bits := bits })
        (ofNat value :: rest) =
      some (Char.ofNat code) :: decodeFrom none rest := by
  rw [decodeFrom, toNat_ofNat', Nat.mod_eq_of_lt (show value < 2 ^ 8 from small),
    if_pos within, whole]
  rfl

theorem decodeFrom_more {owed low high bits value upTo : Nat} (small : value < 256)
    (within : low ≤ value ∧ value ≤ high) (whole : bits * 64 + (value - 0x80) = upTo) :
    decodeFrom (some { owed := owed + 2, low := low, high := high, bits := bits })
        (ofNat value :: rest) =
      decodeFrom (some { owed := owed + 1, low := 0x80, high := 0xBF, bits := upTo }) rest := by
  rw [decodeFrom, toNat_ofNat', Nat.mod_eq_of_lt (show value < 2 ^ 8 from small),
    if_pos within, whole]
  rfl

theorem decodeFrom_encodePoint {bytes : Bytes} (bounded : code < 0x110000)
    (encoded : encodePoint code = some bytes) :
    decodeFrom none (bytes ++ rest) = some (Char.ofNat code) :: decodeFrom none rest := by
  unfold encodePoint at encoded
  by_cases one : code < 0x80
  · rw [if_pos one] at encoded
    cases encoded
    rw [singleton_append, decodeFrom_start (by omega), enter, if_pos one]
    rfl
  rw [if_neg one] at encoded
  by_cases two : code < 0x800
  · rw [if_pos two] at encoded
    cases encoded
    rw [cons_append, singleton_append, decodeFrom_start (by omega), enter,
      if_neg (by omega), if_neg (by omega), if_pos (by omega), nil_append,
      decodeFrom_last (by omega) (by omega) (show _ = code by omega)]
  rw [if_neg two] at encoded
  by_cases lone : isSurrogate code = true
  · rw [if_pos lone] at encoded
    cases encoded
  have paired : code < 0xD800 ∨ 0xDFFF < code := by
    simp only [isSurrogate, Bool.and_eq_true, decide_eq_true_eq] at lone
    omega
  rw [if_neg lone] at encoded
  by_cases three : code < 0x10000
  · rw [if_pos three] at encoded
    cases encoded
    rw [cons_append, cons_append, singleton_append, decodeFrom_start (by omega),
      enter, if_neg (by omega), if_neg (by omega), if_neg (by omega), if_pos (by omega),
      nil_append,
      decodeFrom_more (by omega) (by split <;> split <;> omega) (show _ = code / 64 by omega),
      decodeFrom_last (by omega) (by omega) (show _ = code by omega)]
  · rw [if_neg three] at encoded
    cases encoded
    rw [cons_append, cons_append, cons_append, singleton_append,
      decodeFrom_start (by omega), enter, if_neg (by omega), if_neg (by omega),
      if_neg (by omega), if_neg (by omega), if_pos (by omega), nil_append,
      decodeFrom_more (by omega) (by split <;> split <;> omega) (show _ = code / 4096 by omega),
      decodeFrom_more (by omega) (by omega) (show _ = code / 64 by omega),
      decodeFrom_last (by omega) (by omega) (show _ = code by omega)]

theorem within_of_decoded {pending : Pending} (clean : none ∉ decodeFrom (some pending) data) :
    ∃ byte rest, data = byte :: rest ∧ pending.low ≤ byte.toNat ∧ byte.toNat ≤ pending.high := by
  cases data with
  | nil =>
    exact absurd (mem_singleton_self none) clean
  | cons byte rest =>
    refine ⟨byte, rest, rfl, ?_⟩
    by_contra outside
    rw [decodeFrom, if_neg outside] at clean
    exact clean mem_cons_self

theorem last_of_decoded {low high bits : Nat}
    (clean : none ∉ decodeFrom (some { owed := 1, low := low, high := high, bits := bits }) data) :
    ∃ value rest, data = ofNat value :: rest ∧ low ≤ value ∧ value ≤ high ∧
      none ∉ decodeFrom none rest := by
  obtain ⟨byte, rest, rfl, above, below⟩ := within_of_decoded clean
  refine ⟨byte.toNat, rest, by rw [ofNat_toNat], above, below, ?_⟩
  rw [decodeFrom, if_pos ⟨above, below⟩] at clean
  exact fun broken => clean (mem_cons_of_mem _ broken)

theorem more_of_decoded {owed low high bits : Nat} (clean : none ∉
      decodeFrom (some { owed := owed + 2, low := low, high := high, bits := bits }) data) :
    ∃ value rest, data = ofNat value :: rest ∧ low ≤ value ∧ value ≤ high ∧
      none ∉ decodeFrom (some { owed := owed + 1, low := 0x80, high := 0xBF
                                bits := bits * 64 + (value - 0x80) }) rest := by
  obtain ⟨byte, rest, rfl, above, below⟩ := within_of_decoded clean
  refine ⟨byte.toNat, rest, by rw [ofNat_toNat], above, below, ?_⟩
  rw [decodeFrom, if_pos ⟨above, below⟩] at clean
  exact clean

theorem encodePoint_ofNat {bytes : Bytes} (valid : code < 0xD800 ∨ 0xDFFF < code ∧ code < 0x110000)
    (encoded : encodePoint code = some bytes) :
    encodePoint (Char.ofNat code).toNat = some bytes := by
  have same : (Char.ofNat code).toNat = code := by
    rw [Char.ofNat, dif_pos (show code.isValidChar from valid)]
    rfl
  rw [same, encoded]

theorem encodePoint_two {first second code : Nat} (lead : 0xC2 ≤ first ∧ first < 0xE0)
    (tail : 0x80 ≤ second ∧ second ≤ 0xBF)
    (whole : (first - 0xC0) * 64 + (second - 0x80) = code) :
    encodePoint code = some [ofNat first, ofNat second] := by
  rw [encodePoint, if_neg (by omega), if_pos (by omega),
    show 0xC0 + code / 64 = first by omega, show 0x80 + code % 64 = second by omega]

theorem encodePoint_three {first second third code : Nat} (lead : 0xE0 ≤ first ∧ first < 0xF0)
    (low : (if first = 0xE0 then 0xA0 else 0x80) ≤ second)
    (high : second ≤ if first = 0xED then 0x9F else 0xBF) (tail : 0x80 ≤ third ∧ third ≤ 0xBF)
    (whole : ((first - 0xE0) * 64 + (second - 0x80)) * 64 + (third - 0x80) = code) :
    encodePoint code = some [ofNat first, ofNat second, ofNat third] := by
  have bounds : 0x80 ≤ second ∧ second ≤ 0xBF ∧ (first = 0xE0 → 0xA0 ≤ second) ∧
      (first = 0xED → second ≤ 0x9F) := by
    split at low <;> split at high <;> omega
  have paired : isSurrogate code = false := by
    simp only [isSurrogate, Bool.and_eq_false_iff, decide_eq_false_iff_not]
    omega
  rw [encodePoint, if_neg (by omega), if_neg (by omega), paired, if_neg Bool.false_ne_true,
    if_pos (by omega), show 0xE0 + code / 4096 = first by omega,
    show 0x80 + code / 64 % 64 = second by omega, show 0x80 + code % 64 = third by omega]

theorem encodePoint_four {first second third fourth code : Nat} (lead : 0xF0 ≤ first ∧ first < 0xF5)
    (low : (if first = 0xF0 then 0x90 else 0x80) ≤ second)
    (high : second ≤ if first = 0xF4 then 0x8F else 0xBF) (tail : 0x80 ≤ third ∧ third ≤ 0xBF)
    (last : 0x80 ≤ fourth ∧ fourth ≤ 0xBF)
    (whole : (((first - 0xF0) * 64 + (second - 0x80)) * 64 + (third - 0x80)) * 64 +
      (fourth - 0x80) = code) :
    encodePoint code =
      some [ofNat first, ofNat second, ofNat third, ofNat fourth] := by
  have bounds : 0x80 ≤ second ∧ second ≤ 0xBF ∧ (first = 0xF0 → 0x90 ≤ second) := by
    split at low <;> split at high <;> omega
  have paired : isSurrogate code = false := by
    simp only [isSurrogate, Bool.and_eq_false_iff, decide_eq_false_iff_not]
    omega
  rw [encodePoint, if_neg (by omega), if_neg (by omega), paired, if_neg Bool.false_ne_true,
    if_neg (by omega), show 0xF0 + code / 262144 = first by omega,
    show 0x80 + code / 4096 % 64 = second by omega, show 0x80 + code / 64 % 64 = third by omega,
    show 0x80 + code % 64 = fourth by omega]

theorem exists_encodePoint {byte : UInt8} {rest : Bytes}
    (clean : none ∉ decodeFrom none (byte :: rest)) :
    ∃ (char : Char) (bytes tail : Bytes), byte :: rest = bytes ++ tail ∧ bytes ≠ [] ∧
      encodePoint char.toNat = some bytes ∧ none ∉ decodeFrom none tail := by
  rw [decodeFrom, mem_append, not_or] at clean
  obtain ⟨entered, clean⟩ := clean
  unfold enter at entered clean
  by_cases one : byte.toNat < 0x80
  · rw [if_pos one] at clean
    refine ⟨Char.ofNat byte.toNat, [byte], rest, rfl, cons_ne_nil _ _,
      encodePoint_ofNat (by omega) ?_, clean⟩
    rw [encodePoint, if_pos one, ofNat_toNat]
  rw [if_neg one] at entered clean
  by_cases stray : byte.toNat < 0xC2
  · rw [if_pos stray] at entered
    exact absurd (mem_singleton_self none) entered
  rw [if_neg stray] at entered clean
  by_cases two : byte.toNat < 0xE0
  · rw [if_pos two] at clean
    obtain ⟨second, tail, rfl, above, below, clean⟩ := last_of_decoded clean
    refine ⟨_, [byte, ofNat second], tail, rfl, cons_ne_nil _ _,
      encodePoint_ofNat ?_ (by
        rw [encodePoint_two ⟨by omega, two⟩ ⟨above, below⟩ rfl, ofNat_toNat]), clean⟩
    omega
  rw [if_neg two] at entered clean
  by_cases three : byte.toNat < 0xF0
  · rw [if_pos three] at clean
    obtain ⟨second, tail, rfl, above, below, clean⟩ := more_of_decoded clean
    obtain ⟨third, tail, rfl, thirdAbove, thirdBelow, clean⟩ := last_of_decoded clean
    refine ⟨_, [byte, ofNat second, ofNat third], tail, rfl, cons_ne_nil _ _,
      encodePoint_ofNat ?_ (by
        rw [encodePoint_three ⟨by omega, three⟩ above below ⟨thirdAbove, thirdBelow⟩ rfl,
          ofNat_toNat]), clean⟩
    split at above <;> split at below <;> omega
  rw [if_neg three] at entered clean
  by_cases four : byte.toNat < 0xF5
  · rw [if_pos four] at clean
    obtain ⟨second, tail, rfl, above, below, clean⟩ := more_of_decoded clean
    obtain ⟨third, tail, rfl, thirdAbove, thirdBelow, clean⟩ := more_of_decoded clean
    obtain ⟨fourth, tail, rfl, fourthAbove, fourthBelow, clean⟩ := last_of_decoded clean
    refine ⟨_, [byte, ofNat second, ofNat third, ofNat fourth], tail, rfl,
      cons_ne_nil _ _,
      encodePoint_ofNat ?_ (by
        rw [encodePoint_four ⟨by omega, four⟩ above below ⟨thirdAbove, thirdBelow⟩
          ⟨fourthAbove, fourthBelow⟩ rfl, ofNat_toNat]), clean⟩
    split at above <;> split at below <;> omega
  · rw [if_neg four] at entered
    exact absurd (mem_singleton_self none) entered

end Utf8

theorem toNat_lt_limit (char : Char) : char.toNat < 0x110000 := by
  have valid := char.valid
  change char.toNat < 0xd800 ∨ 0xdfff < char.toNat ∧ char.toNat < 0x110000 at valid
  omega

variable {text : Text}

theorem decodeChars_encode
    (encoded : encode (text.map Char.toNat) = some data) : decodeChars data = text.map some := by
  induction text generalizing data with
  | nil =>
    cases encoded
    rfl
  | cons char rest ih =>
    obtain ⟨first, others, here, later, rfl⟩ := encode_cons_eq_some encoded
    rw [decodeChars, Utf8.decodeFrom_encodePoint (toNat_lt_limit char) here, Char.ofNat_toNat,
      map_cons, ← ih later]
    rfl

theorem decode_encode (encoded : encode (text.map Char.toNat) = some data) :
    decode data = some text := by
  rw [decode, decodeChars_encode encoded]
  exact mapM_id_map_some text

theorem encode_of_clean (clean : none ∉ decodeChars data) :
    ∃ text : Text, encode (text.map Char.toNat) = some data := by
  induction length : data.length using Nat.strongRecOn generalizing data with
  | ind length ih =>
    cases data with
    | nil => exact ⟨[], rfl⟩
    | cons byte rest =>
      obtain ⟨char, bytes, tail, whole, nonempty, encoded, later⟩ := Utf8.exists_encodePoint clean
      have positive := length_pos_of_ne_nil nonempty
      have lengths := congrArg List.length whole
      rw [length_append] at lengths
      obtain ⟨text, encodes⟩ := ih tail.length (by omega) later rfl
      refine ⟨char :: text, ?_⟩
      rw [whole]
      exact encode_cons encoded encodes

theorem encode_decode (decoded : decode data = some text) :
    encode (text.map Char.toNat) = some data := by
  have clean : none ∉ decodeChars data := by
    unfold decode at decoded
    generalize decodeChars data = chars at decoded
    induction chars generalizing text with
    | nil => exact not_mem_nil
    | cons char rest ih =>
      simp only [mapM_cons, id, bind, Option.bind_eq_some_iff, pure] at decoded
      obtain ⟨first, rfl, others, later, _⟩ := decoded
      simpa using ih later
  obtain ⟨other, encodes⟩ := encode_of_clean clean
  rw [decode_encode encodes, Option.some.injEq] at decoded
  rwa [decoded] at encodes

end XFerry.Python
