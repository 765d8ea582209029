/-
The decoders of Advanced upload payloads against the encodings they are for.
-/

import XFerry.Advanced.GzipStream
import XFerry.Advanced.PayloadTotality
import XFerry.Encoding.Packing
import XFerry.Python.Utf8RoundTrip

namespace XFerry.AdvancedPayload

open Python Http Json List

theorem hexOf_digits : ∀ value < 16,
    isHexSpace (Packing.hexDigits.getD value '0').toNat = false ∧
      hexOf (Packing.hexDigits.getD value '0').toNat = some value := by
  decide +kernel

theorem fromHex_toHex (data : Bytes) : fromHex (str (Packing.toHex data)) = some data := by
  induction data with
  | nil => rfl
  | cons byte rest ih =>
    have small := byte.toNat_lt
    obtain ⟨noSpace, high⟩ := hexOf_digits (byte.toNat / 16) (by omega)
    obtain ⟨_, low⟩ := hexOf_digits (byte.toNat % 16) (by omega)
    have whole : byte.toNat / 16 * 16 + byte.toNat % 16 = byte.toNat := by omega
    rw [str] at ih
    rw [Packing.toHex, str, map_cons, map_cons, fromHex,
      if_neg (by rw [noSpace]; exact Bool.false_ne_true), high, low]
    dsimp only
    rw [ih, whole, UInt8.ofNat_toNat]
    rfl

/-- A percent sign stands in front of two hexadecimal digits only. -/
def EscapesWhole (encoded : Str) : Prop :=
  ∀ front rest, encoded = front ++ 37 :: rest →
    ∃ high low tail, rest = high :: low :: tail ∧ (hexOf high).isSome = true ∧
      (hexOf low).isSome = true

inductive PercentPiece where
  | triple (high low highValue lowValue : Nat) (isHigh : hexOf high = some highValue)
      (isLow : hexOf low = some lowValue)
  | plain (code : Nat) (noPercent : code ≠ 37) (paired : isSurrogate code = false)

namespace PercentPiece

def text : PercentPiece → Str
  | .triple high low _ _ _ _ => [37, high, low]
  | .plain code _ _ => [code]

def bytes : PercentPiece → Bytes
  | .triple _ _ highValue lowValue _ _ => [UInt8.ofNat (highValue * 16 + lowValue)]
  | .plain code _ _ => (encodePoint code).getD []

end PercentPiece

open PercentPiece

theorem prepend_eq_ok {first data : Bytes} {rest : Except PercentFault Bytes} :
    prepend first rest = .ok data ↔ ∃ bytes, rest = .ok bytes ∧ data = first ++ bytes := by
  cases rest with
  | error fault => exact iff_of_false nofun (by rintro ⟨_, impossible, _⟩; cases impossible)
  | ok bytes =>
    constructor
    · rintro ⟨⟩
      exact ⟨bytes, rfl, rfl⟩
    · rintro ⟨_, ⟨⟩, rfl⟩
      rfl

theorem percentDecode_plain {code : Nat} {rest : Str} (noPercent : code ≠ 37)
    {bytes : Bytes} (encoded : encodePoint code = some bytes) :
    percentDecode false (code :: rest) = prepend bytes (percentDecode false rest) := by
  rw [percentDecode]
  · rw [if_neg noPercent, if_neg (by simp), encoded]
  · rintro high low tail rfl
    exact fun _ => noPercent rfl

theorem percentDecode_pieces (pieces : List PercentPiece) :
    percentDecode false (pieces.flatMap text) = .ok (pieces.flatMap bytes) := by
  induction pieces with
  | nil => rfl
  | cons piece rest ih =>
    rw [flatMap_cons, flatMap_cons]
    cases piece with
    | triple high low highValue lowValue isHigh isLow =>
      dsimp only [text, cons_append, nil_append]
      rw [percentDecode, isHigh, isLow]
      rw [ih]
      rfl
    | plain code noPercent paired =>
      obtain ⟨bytes, encoded⟩ := Option.isSome_iff_exists.mp (encodePoint_isSome.mpr paired)
      dsimp only [PercentPiece.text, PercentPiece.bytes, cons_append, nil_append]
      rw [percentDecode_plain noPercent encoded, ih, encoded]
      rfl

variable {encoded : Str} {data : Bytes}

theorem exists_pieces (decoded : percentDecode false encoded = .ok data) :
    ∃ pieces : List PercentPiece, encoded = pieces.flatMap text := by
  fun_induction percentDecode false encoded generalizing data with
  | case1 => exact ⟨[], rfl⟩
  | case2 high low rest highValue lowValue isLow isHigh ih =>
    obtain ⟨bytes, later, _⟩ := prepend_eq_ok.mp decoded
    obtain ⟨pieces, rfl⟩ := ih later
    exact ⟨.triple high low _ _ isHigh isLow :: pieces, rfl⟩
  | case3 high low rest broken => cases decoded
  | case4 rest short => cases decoded
  | case5 code rest _ noPercent plus ih => exact absurd plus.2 Bool.false_ne_true
  | case6 code rest _ noPercent _ lone => cases decoded
  | case7 code rest _ noPercent _ bytes encoded ih =>
    obtain ⟨others, later, _⟩ := prepend_eq_ok.mp decoded
    obtain ⟨pieces, rfl⟩ := ih later
    have paired := encodePoint_isSome.mp (Option.isSome_iff_exists.mpr ⟨bytes, encoded⟩)
    exact ⟨.plain code noPercent paired :: pieces, rfl⟩

theorem percentDecode_eq_ok :
    percentDecode false encoded = .ok data ↔
      ∃ pieces : List PercentPiece, encoded = pieces.flatMap text ∧
        data = pieces.flatMap bytes := by
  constructor
  · intro decoded
    obtain ⟨pieces, rfl⟩ := exists_pieces decoded
    rw [percentDecode_pieces] at decoded
    exact ⟨pieces, rfl, (Except.ok.inj decoded).symm⟩
  · rintro ⟨pieces, rfl, rfl⟩
    exact percentDecode_pieces pieces

theorem pieces_whole (pieces : List PercentPiece) :
    (∀ code ∈ pieces.flatMap text, isSurrogate code = false) ∧
      EscapesWhole (pieces.flatMap text) := by
  have paired {code value : Nat} (isHex : hexOf code = some value) : isSurrogate code = false := by
    unfold hexOf at isHex
    split at isHex
    · simp only [isSurrogate, Bool.and_eq_false_iff, decide_eq_false_iff_not]
      omega
    · cases isHex
  induction pieces with
  | nil =>
    refine ⟨forall_mem_nil _, ?_⟩
    intro front rest whole
    exact absurd whole.symm (append_ne_nil_of_right_ne_nil _ (cons_ne_nil _ _))
  | cons piece pieces ih =>
    obtain ⟨codes, escapes⟩ := ih
    rw [flatMap_cons]
    cases piece with
    | triple high low highValue lowValue isHigh isLow =>
      dsimp only [text, cons_append, nil_append]
      refine ⟨?_, ?_⟩
      · rw [forall_mem_cons, forall_mem_cons, forall_mem_cons]
        exact ⟨by decide, paired isHigh, paired isLow, codes⟩
      · intro front rest whole
        rcases front with _ | ⟨_, _ | ⟨_, _ | ⟨_, front⟩⟩⟩
        · cases whole
          exact ⟨high, low, _, rfl, by rw [isHigh]; rfl, by rw [isLow]; rfl⟩
        · simp only [singleton_append, cons.injEq] at whole
          rw [whole.2.1] at isHigh
          cases isHigh
        · simp only [cons_append, nil_append, cons.injEq] at whole
          rw [whole.2.2.1] at isLow
          cases isLow
        · simp only [cons_append, cons.injEq] at whole
          exact escapes front rest whole.2.2.2
    | plain code noPercent lone =>
      dsimp only [text, cons_append, nil_append]
      refine ⟨forall_mem_cons.mpr ⟨lone, codes⟩, ?_⟩
      intro front rest whole
      cases front with
      | nil =>
        cases whole
        exact absurd rfl noPercent
      | cons first front =>
        rw [cons_append, cons.injEq] at whole
        exact escapes front rest whole.2

theorem percentDecode_succeeds
    (paired : ∀ code ∈ encoded, isSurrogate code = false) (whole : EscapesWhole encoded) :
    Succeeds (percentDecode false encoded) := by
  have goesOn {first : Bytes} {rest : Str} (later : Succeeds (percentDecode false rest)) :
      Succeeds (prepend first (percentDecode false rest)) := by
    obtain ⟨bytes, decoded⟩ := later
    exact ⟨first ++ bytes, prepend_eq_ok.mpr ⟨bytes, decoded, rfl⟩⟩
  fun_induction percentDecode false encoded with
  | case1 => exact .ok _
  | case2 high low rest highValue lowValue isLow isHigh ih =>
    rw [forall_mem_cons, forall_mem_cons, forall_mem_cons] at paired
    refine goesOn (ih paired.2.2.2 fun front tail same =>
      whole (37 :: high :: low :: front) tail ?_)
    rw [same]
    rfl
  | case3 high low rest broken =>
    obtain ⟨_, _, _, same, isHigh, isLow⟩ := whole [] (high :: low :: rest) rfl
    cases same
    obtain ⟨highValue, high⟩ := Option.isSome_iff_exists.mp isHigh
    obtain ⟨lowValue, low⟩ := Option.isSome_iff_exists.mp isLow
    exact (broken highValue lowValue high low).elim
  | case4 rest short =>
    obtain ⟨high, low, tail, same, _⟩ := whole [] rest rfl
    exact (short high low tail rfl same).elim
  | case5 code rest _ noPercent plus ih => exact absurd plus.2 Bool.false_ne_true
  | case6 code rest _ noPercent _ lone =>
    have encodes := encodePoint_isSome.mpr (paired code mem_cons_self)
    rw [lone] at encodes
    cases encodes
  | case7 code rest _ noPercent _ bytes encoded ih =>
    rw [forall_mem_cons] at paired
    refine goesOn (ih paired.2 fun front tail same => whole (code :: front) tail ?_)
    rw [same]
    rfl

theorem strictPercentDecodeBytes_eq_ok :
    strictPercentDecodeBytes encoded false = .ok data ↔ percentDecode false encoded = .ok data := by
  unfold strictPercentDecodeBytes
  cases percentDecode false encoded with
  | ok bytes => simp
  | error fault =>
    cases fault with
    | badEscape | notEncodable => exact iff_of_false nofun nofun

theorem strictPercentDecodeBytes_succeeds :
    Succeeds (strictPercentDecodeBytes encoded false) ↔
      (∀ code ∈ encoded, isSurrogate code = false) ∧ EscapesWhole encoded := by
  constructor
  · rintro ⟨data, decoded⟩
    obtain ⟨pieces, rfl⟩ := exists_pieces (strictPercentDecodeBytes_eq_ok.mp decoded)
    exact pieces_whole pieces
  · rintro ⟨paired, whole⟩
    obtain ⟨data, decoded⟩ := percentDecode_succeeds paired whole
    exact ⟨data, strictPercentDecodeBytes_eq_ok.mpr decoded⟩

def percentDigit (value : Nat) : Char := "0123456789ABCDEF".toList.getD value '0'

def percentText (safe : UInt8 → Bool) (data : Bytes) : Text :=
  data.flatMap fun byte =>
    if safe byte = true ∧ byte.toNat < 0x80 ∧ byte.toNat ≠ 37 then [Char.ofNat byte.toNat]
    else ['%', percentDigit (byte.toNat / 16), percentDigit (byte.toNat % 16)]

theorem hexOf_percentDigit : ∀ value < 16, hexOf (percentDigit value).toNat = some value := by
  decide +kernel

theorem exists_pieces_percentText (safe : UInt8 → Bool) (data : Bytes) :
    ∃ pieces : List PercentPiece, str (percentText safe data) = pieces.flatMap text ∧
      pieces.flatMap bytes = data := by
  induction data with
  | nil => exact ⟨[], rfl, rfl⟩
  | cons byte rest ih =>
    obtain ⟨pieces, text, bytes⟩ := ih
    have small := byte.toNat_lt
    rw [percentText, str] at text ⊢
    rw [flatMap_cons, map_append, text]
    by_cases plain : safe byte = true ∧ byte.toNat < 0x80 ∧ byte.toNat ≠ 37
    · have code : (Char.ofNat byte.toNat).toNat = byte.toNat := by
        rw [Char.ofNat, dif_pos (show byte.toNat.isValidChar from .inl (by omega))]
        rfl
      have paired : isSurrogate byte.toNat = false := by
        simp only [isSurrogate, Bool.and_eq_false_iff, decide_eq_false_iff_not]
        omega
      refine ⟨.plain byte.toNat plain.2.2 paired :: pieces, ?_, ?_⟩
      · rw [if_pos plain, flatMap_cons, map_singleton, code]
        rfl
      · rw [flatMap_cons, bytes, PercentPiece.bytes, encodePoint, if_pos plain.2.1,
          UInt8.ofNat_toNat]
        rfl
    · have high := hexOf_percentDigit (byte.toNat / 16) (by omega)
      have low := hexOf_percentDigit (byte.toNat % 16) (by omega)
      have whole : byte.toNat / 16 * 16 + byte.toNat % 16 = byte.toNat := by omega
      refine ⟨.triple _ _ _ _ high low :: pieces, ?_, ?_⟩
      · rw [if_neg plain, flatMap_cons]
        rfl
      · rw [flatMap_cons, bytes, PercentPiece.bytes, whole, UInt8.ofNat_toNat]
        rfl

theorem orInvalidEncoding_eq_ok {α : Type} {decoded : Option α} {value : α} :
    orInvalidEncoding decoded = .ok value ↔ decoded = some value := by
  cases decoded with
  | none => exact iff_of_false nofun nofun
  | some other =>
    constructor
    · rintro ⟨⟩
      rfl
    · rintro ⟨⟩
      rfl

theorem strictBase64_eq_ok : strictBase64 encoded = .ok data ↔ encoded = str (Base64.encode data) :=
  orInvalidEncoding_eq_ok.trans Base64.decode_eq_some

theorem noPadding_of_matches (isText : matchesBase64Url encoded = true) :
    encoded.contains '='.toNat = false := by
  have noDigit : Base64Url.alphabet.any (fun char => char.toNat = '='.toNat) = false := by decide
  rw [matchesBase64Url, Bool.and_eq_true, all_eq_true] at isText
  rw [contains_eq_mem, decide_eq_false_iff_not]
  intro padded
  exact Bool.false_ne_true (noDigit.symm.trans (isText.2 _ padded))

theorem matchesBase64Url_encode (some : data ≠ []) :
    matchesBase64Url (str (Base64Url.encode data)) = true := by
  have written : str (Base64Url.encode data) ≠ [] := by
    have length := Base64Url.length_encode data
    have positive := length_pos_of_ne_nil some
    rw [← length_pos_iff, str, length_map]
    omega
  rw [matchesBase64Url, Bool.and_eq_true, all_eq_true]
  refine ⟨decide_eq_true written, ?_⟩
  intro code present
  obtain ⟨char, inText, rfl⟩ := mem_map.mp present
  exact any_eq_true.mpr ⟨char, Base64Url.mem_alphabet_of_mem_encode data char inText,
    decide_eq_true rfl⟩

theorem strictBase64url_eq_ok :
    strictBase64url encoded = .ok data ↔ encoded = str (Base64Url.encode data) ∧ data ≠ [] := by
  unfold strictBase64url
  constructor
  · intro decoded
    split at decoded
    · cases decoded
    rename_i isText
    rw [not_or, Bool.not_eq_false] at isText
    obtain rfl := Base64Url.decode_eq_some.mp (orInvalidEncoding_eq_ok.mp decoded)
    refine ⟨rfl, ?_⟩
    rintro rfl
    exact Bool.false_ne_true isText.2
  · rintro ⟨rfl, some⟩
    have isText := matchesBase64Url_encode some
    have noPadding := noPadding_of_matches isText
    rw [if_neg (by rw [isText, noPadding]; decide)]
    exact orInvalidEncoding_eq_ok.mpr (Base64Url.decode_encode data)

/-- The encodings of some data, which any compressor may have put in a stream. -/
inductive StandardEncoding (format : GzipFormat) (data : Bytes) : AdvancedEncoding → Str → Prop
  | raw (text : Text) (valid : decode data = some text) :
      StandardEncoding format data .raw (str text)
  | base64 : StandardEncoding format data .base64 (str (Base64.encode data))
  | base64url : StandardEncoding format data .base64url (str (Base64Url.encode data))
  | hex : StandardEncoding format data .hex (str (Packing.toHex data))
  | percent (safe : UInt8 → Bool) :
      StandardEncoding format data .percent (str (percentText safe data))
  | gzipBase64 (stream : Bytes) (isMember : format.Member stream)
      (inflates : format.output stream = data) :
      StandardEncoding format data .gzipBase64 (str (Base64.encode stream))
  | gzipBase64url (stream : Bytes) (isMember : format.Member stream)
      (inflates : format.output stream = data) :
      StandardEncoding format data .gzipBase64url (str (Base64Url.encode stream))

variable {State : Type} {inflater : Inflater State} {format : GzipFormat}

theorem gunzip_member (contract : GzipContract inflater format) (decodedLimit : Nat)
    {stream : Bytes} (isMember : format.Member stream) :
    gunzip inflater decodedLimit stream = .ok (format.output stream) ∨
      decodedLimit < (format.output stream).length ∧
        gunzip inflater decodedLimit stream = .error .decodedTooLarge := by
  have inflated : boundedGzipDecompress inflater decodedLimit [stream].flatten = _ :=
    boundedGzipDecompress_members contract (cons_ne_nil _ _) (forall_mem_singleton.mpr isMember)
  rw [flatten_singleton, map_singleton, flatten_singleton] at inflated
  unfold gunzip
  rw [inflated]
  by_cases fits : (format.output stream).length ≤ decodedLimit
  · rw [if_pos fits]
    exact .inl rfl
  · rw [if_neg fits]
    exact .inr ⟨Nat.lt_of_not_le fits, rfl⟩

variable {encoding : AdvancedEncoding}

theorem decodeText_standard (contract : GzipContract inflater format) (decodedLimit : Nat)
    (some : data ≠ []) (standard : StandardEncoding format data encoding encoded) :
    decodeText inflater decodedLimit encoded encoding = .ok data ∨
      decodedLimit < data.length ∧
        decodeText inflater decodedLimit encoded encoding = .error .decodedTooLarge := by
  cases standard with
  | raw text valid =>
    left
    rw [decodeText, str, encode_decode valid]
    rfl
  | base64 =>
    left
    exact strictBase64_eq_ok.mpr rfl
  | base64url =>
    left
    exact strictBase64url_eq_ok.mpr ⟨rfl, some⟩
  | hex =>
    left
    rw [decodeText, fromHex_toHex]
    rfl
  | percent safe =>
    left
    obtain ⟨pieces, text, bytes⟩ := exists_pieces_percentText safe data
    have decoded := strictPercentDecodeBytes_eq_ok.mpr (percentDecode_pieces pieces)
    rw [decodeText, decodePercent, text, decoded, bytes]
  | gzipBase64 stream isMember inflates =>
    cases inflates
    rw [decodeText, strictBase64_eq_ok.mpr rfl]
    exact gunzip_member contract decodedLimit isMember
  | gzipBase64url stream isMember inflates =>
    cases inflates
    rw [decodeText, strictBase64url_eq_ok.mpr ⟨rfl, format.member_ne_nil stream isMember⟩]
    exact gunzip_member contract decodedLimit isMember

theorem decodeAdvancedPayloadData_standard (contract : GzipContract inflater format)
    {decodedLimit : Nat} (some : data ≠ []) {payload : CanonicalAdvancedPayload}
    (noRaw : payload.rawData = none)
    (isEncoded : payload.encodedData = encoded) (isEncoding : payload.encoding = encoding)
    (standard : StandardEncoding format data encoding encoded) :
    decodeAdvancedPayloadData inflater decodedLimit payload =
      if data.length ≤ decodedLimit then .ok data else .error .decodedTooLarge := by
  unfold decodeAdvancedPayloadData
  rw [noRaw, isEncoded, isEncoding]
  dsimp only
  rcases decodeText_standard contract decodedLimit some standard with
    decoded | ⟨tooLarge, refused⟩
  · rw [decoded]
    refine (if_neg some).trans ?_
    by_cases fits : data.length ≤ decodedLimit
    · rw [if_neg (Nat.not_lt.mpr fits), if_pos fits]
    · rw [if_pos (Nat.lt_of_not_le fits), if_neg fits]
  · rw [refused, if_neg (Nat.not_le.mpr tooLarge)]
    rfl

/-- Decoding inverts each encoding under the limit, and base64, base64url and percent
encoding are accepted where they are well formed alone, base64url where it is of some byte. -/
theorem payload_decoding_inverts (contract : GzipContract inflater format) (decodedLimit : Nat) :
    (∀ (payload : CanonicalAdvancedPayload) (encoding : AdvancedEncoding) (encoded : Str)
        (data : Bytes), data ≠ [] → payload.rawData = none → payload.encodedData = encoded →
      payload.encoding = encoding → StandardEncoding format data encoding encoded →
      decodeAdvancedPayloadData inflater decodedLimit payload =
        if data.length ≤ decodedLimit then .ok data else .error .decodedTooLarge) ∧
    (∀ encoded data,
      strictBase64 encoded = .ok data ↔ encoded = str (Base64.encode data)) ∧
    (∀ encoded data, strictBase64url encoded = .ok data ↔
      encoded = str (Base64Url.encode data) ∧ data ≠ []) ∧
    (∀ encoded, Succeeds (strictPercentDecodeBytes encoded false) ↔
      (∀ code ∈ encoded, isSurrogate code = false) ∧ EscapesWhole encoded) ∧
    ∀ encoded data, strictPercentDecodeBytes encoded false = .ok data ↔
      ∃ pieces : List PercentPiece, encoded = pieces.flatMap text ∧
        data = pieces.flatMap bytes := by
  refine ⟨?_, fun encoded data => strictBase64_eq_ok, fun encoded data => strictBase64url_eq_ok,
    fun encoded => strictPercentDecodeBytes_succeeds,
    fun encoded data => strictPercentDecodeBytes_eq_ok.trans percentDecode_eq_ok⟩
  intro payload encoding encoded data some noRaw isEncoded isEncoding standard
  exact decodeAdvancedPayloadData_standard contract some noRaw isEncoded isEncoding standard

def gzipPayload : CanonicalAdvancedPayload :=
  { carrier := .body
    bodyProfile := .json
    encodedData := some (str (Base64Url.encode gzipOfA))
    rawData := none
    encryption := .none
    key := none
    keyIsBase64 := false
    name := none
    hmac := none
    encoding := some .gzipBase64url
    methodOverride := none
    contentType := []
    filenameSource := .generated }

theorem gzipPayload_decoded : decodeAdvancedPayloadData sampleInflater 1 gzipPayload = .ok [97] :=
  (payload_decoding_inverts sampleContract 1).1 gzipPayload _ _ [97] (cons_ne_nil _ _) rfl rfl
    rfl (.gzipBase64url gzipOfA rfl rfl)

/-- The empty text is the encoding of no bytes, and is not accepted. -/
theorem emptyText_refused :
    ¬ ∀ encoded data, strictBase64url encoded = .ok data ↔
      encoded = str (Base64Url.encode data) := by
  intro canonical
  have refused : strictBase64url [] = .error invalidEncoding := by decide
  have accepted := (canonical [] []).mpr rfl
  rw [refused] at accepted
  cases accepted

end XFerry.AdvancedPayload
