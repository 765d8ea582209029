/-
Agreement of the browser and the server on the encrypted transfer format.

The sizes of a manifest and the indexes of its chunks are integers of at most 53 bits,
where the floats of the browser are exact.  A number that is none of these is rejected by
both.
-/

import XFerry.Ui.TransferTexts

namespace XFerry.Ui

open List Option Ensures

open Encrypted (Aead Bytes eufChunkSize eufGcmTagSize packed)
open Encrypted.Manifest (packed_of_fits)
open JavaScript (CodePoint Number codesOf pointsOf utf16)
open JavaScript.Number (less_zero_natCast ofInt ofInt_natCast setUint32_natCast)
open Packing (Field Fits bigEndian layout)

/-- A manifest of the server and one of the browser with the same values in the fields
that both have. -/
structure SameFields (manifest : Encrypted.Manifest) (browser : Manifest) : Prop where
  version : browser.version = ofInt manifest.version
  fileId : browser.fileId = utf16 (pointsOf manifest.fileId.text)
  plaintextSize : browser.plaintextSize = ofInt manifest.plaintextSize
  chunkSize : browser.chunkSize = ofInt manifest.chunkSize
  chunkCount : browser.chunkCount = ofInt manifest.chunkCount
  salt : browser.salt = manifest.salt
  noncePrefix : browser.noncePrefix = manifest.noncePrefix

theorem toOption_bind {ε α β : Type} (result : Except ε α) (next : α → Except ε β) :
    (result >>= next).toOption = result.toOption.bind fun value => (next value).toOption := by
  cases result with
  | error | ok => rfl

theorem toOption_ok {ε α : Type} (value : α) :
    (Except.ok value : Except ε α).toOption = some value := rfl

theorem toOption_error {ε α : Type} (failure : ε) :
    (Except.error failure : Except ε α).toOption = none := rfl

theorem toOption_eq_some {ε α : Type} {result : Except ε α} {value : α} :
    result.toOption = some value ↔ result = .ok value := by
  cases result with
  | error failure => exact iff_of_false (fun none => nomatch none) (fun failed => nomatch failed)
  | ok other => exact ⟨fun same => congrArg Except.ok (Option.some.inj same),
      fun same => congrArg some (Except.ok.inj same)⟩

theorem uint32_natCast {value : Nat} (small : value < 2 ^ 32) (field : String) :
    uint32 (.finite (value : ℚ)) field = .ok (bigEndian 4 value) := by
  have limit : (0xffffffff : ℚ) = ((2 ^ 32 - 1 : Nat) : ℚ) := by norm_num
  have above : decide (2 ^ 32 - 1 < value) = false := decide_eq_false (by omega)
  rw [uint32, if_neg, setUint32_natCast small]
  rw [Number.isInteger_natCast, less_zero_natCast, limit, Number.less_natCast, above]
  decide

theorem packed_of_not_fits {fields : List Field} {field : Field} (member : field ∈ fields)
    (overflows : ¬ Fits field) : packed fields = .error .structError := by
  rw [packed, Packing.pack, if_neg]
  exact fun fit => overflows (fit field member)

theorem uint32_agrees (value : Int) (field : String) :
    (uint32 (ofInt value) field).toOption = (packed [(4, value)]).toOption := by
  by_cases fits : Fits (4, value)
  · obtain ⟨natural, rfl⟩ := Int.eq_ofNat_of_zero_le fits.1
    have small : natural < 2 ^ 32 := by
      have bound := fits.2
      simp only [Int.reducePow] at bound
      omega
    have all : ∀ field ∈ [((4, natural) : Field)], Fits field := by
      rw [forall_mem_singleton]
      exact fits
    rw [ofInt_natCast (by omega), uint32_natCast small,
      packed_of_fits all, layout, flatMap_singleton]
    rfl
  · have limit : (0xffffffff : ℚ) = ((2 ^ 32 - 1 : Nat) : ℚ) := by norm_num
    rw [packed_of_not_fits (mem_singleton_self _) fits, uint32, if_pos]
    · rfl
    · by_contra accepted
      rw [not_or, not_or, Bool.not_eq_false, Bool.not_eq_true, Bool.not_eq_true] at accepted
      obtain ⟨natural, isNatural⟩ := Number.isInteger_nonneg_iff.mp ⟨accepted.1, accepted.2.1⟩
      have top := accepted.2.2
      rw [isNatural, limit, Number.less_natCast, decide_eq_false_iff_not] at top
      have small : natural < 2 ^ 53 := by omega
      have same := (Number.ofInt_eq_iff small).mp isNatural
      refine fits ⟨?_, ?_⟩
      · exact same ▸ Int.natCast_nonneg natural
      · simp only [Int.reducePow]
        omega

theorem packed_pair (left right : Int) :
    (packed [(4, left), (4, right)]).toOption =
      (packed [(4, left)]).toOption.bind fun high =>
        (packed [(4, right)]).toOption.map (high ++ ·) := by
  by_cases leftFits : Fits (4, left)
  · by_cases rightFits : Fits (4, right)
    · rw [packed_of_fits (forall_mem_cons.mpr
        ⟨leftFits, forall_mem_singleton.mpr rightFits⟩),
        packed_of_fits (forall_mem_singleton.mpr leftFits),
        packed_of_fits (forall_mem_singleton.mpr rightFits)]
      simp [Except.toOption, layout]
    · rw [packed_of_not_fits (mem_cons_of_mem _ (mem_singleton_self _)) rightFits,
        packed_of_not_fits (mem_singleton_self _) rightFits,
        packed_of_fits (forall_mem_singleton.mpr leftFits)]
      rfl
  · rw [packed_of_not_fits mem_cons_self leftFits,
      packed_of_not_fits (mem_singleton_self _) leftFits]
    rfl

theorem uint64_natCast {value : Nat} (small : value < 2 ^ 53) (field : String) :
    uint64 (.finite (value : ℚ)) field = .ok (bigEndian 8 value) := by
  have half : (0x100000000 : ℚ) = ((2 ^ 32 : Nat) : ℚ) := by norm_num
  have high : (Number.divide (.finite (value : ℚ)) (.finite 0x100000000)).floor =
      .finite ((value / 2 ^ 32 : Nat) : ℚ) := by
    rw [half]
    exact Number.floor_divide small (by decide)
  have low : Number.remainder (.finite (value : ℚ)) (.finite 0x100000000) =
      .finite ((value % 2 ^ 32 : Nat) : ℚ) := by
    exact Number.remainder_natCast value (by decide)
  rw [uint64, if_neg]
  · dsimp only
    rw [high, low, setUint32_natCast (by omega),
      setUint32_natCast (Nat.mod_lt _ (by decide)), Packing.bigEndian_add 4 4,
      ← Packing.bigEndian_mod 4 value]
    rfl
  · rw [Number.isSafeInteger_natCast small, less_zero_natCast]
    simp

theorem importAesKey_same (key : Bytes) :
    (importAesKey key).toOption = (Encrypted.requireAesKey key).toOption := by
  unfold importAesKey Encrypted.requireAesKey
  by_cases length : key.length = 32
  · rw [if_neg (not_not.mpr length), if_pos length]
    rfl
  · rw [if_pos length, if_neg length]
    rfl

theorem chunkSize_eq_natCast : chunkSize = .finite ((eufChunkSize : Nat) : ℚ) := by
  rw [chunkSize, eufChunkSize]
  norm_num

section Manifests

variable {manifest : Encrypted.Manifest} {browser : Manifest}

theorem plaintextSize_lt (manifest : Encrypted.Manifest) : manifest.plaintextSize < 2 ^ 36 := by
  have size := manifest.plaintextSize_le
  simp only [Encrypted.eufMaxFileSize, Encrypted.eufMaxChunkCount, eufChunkSize] at size
  omega

variable (same : SameFields manifest browser)

include same

theorem decodeFileId_same : decodeFileId browser.fileId = .ok manifest.fileId.bytes := by
  have decoded := decodeFileId_agrees (pointsOf manifest.fileId.text)
  rw [JavaScript.codesOf_pointsOf, Encrypted.fileIdBytes_text, ← same.fileId] at decoded
  cases result : decodeFileId browser.fileId with
  | error thrown =>
    rw [result] at decoded
    cases decoded
  | ok bytes =>
    rw [result] at decoded
    exact congrArg Except.ok (Option.some.inj decoded)

theorem plaintextSize_same : browser.plaintextSize = .finite (manifest.plaintextSize : ℚ) := by
  have size := plaintextSize_lt manifest
  rw [same.plaintextSize, ofInt_natCast (by omega)]

theorem chunkSize_same : browser.chunkSize = .finite (eufChunkSize : ℚ) := by
  rw [same.chunkSize, manifest.chunkSize_eq, ofInt_natCast (by decide)]

theorem chunkCount_same : browser.chunkCount = .finite (manifest.chunkCount : ℚ) := by
  have count := manifest.chunkCount_lt
  rw [same.chunkCount, ofInt_natCast (by omega)]

theorem validateManifest_same : validateManifest browser = .ok () := by
  have size := plaintextSize_lt manifest
  have versions : browser.version.strictEquals version = true := by
    rw [same.version, manifest.version_eq, Encrypted.eufVersion, ofInt_natCast (by decide),
      version, Nat.cast_one]
    decide +kernel
  have counted : (browser.plaintextSize.divide chunkSize).ceil = browser.chunkCount := by
    have small : manifest.plaintextSize < 2 ^ 53 := by omega
    have divided := Number.ceil_divide small (show 23 ≤ 1074 by decide)
    have unit : eufChunkSize = 2 ^ 23 := by decide
    rw [plaintextSize_same same, chunkSize_eq_natCast, chunkCount_same same,
      manifest.chunkCount_eq, manifest.chunkSize_eq, unit, divided]
  rw [validateManifest, versions, if_neg (by decide)]
  refine bind_eq (decodeFileId_same same) ?_
  rw [plaintextSize_same same, Number.isSafeInteger_natCast (by omega),
    less_zero_natCast, if_neg (by decide), chunkSize_same same, chunkSize_eq_natCast,
    Number.strictEquals_natCast, if_neg (by simp), ← chunkSize_eq_natCast,
    ← plaintextSize_same same, counted, chunkCount_same same, Number.strictEquals_natCast,
    if_neg (by simp), same.salt, manifest.salt_length, if_neg (by decide), same.noncePrefix,
    manifest.noncePrefix_length, if_neg (by decide)]

variable {index : Nat}

theorem expectedLength_same (inside : index < manifest.chunkCount) :
    chunkSize.min (browser.plaintextSize.subtract
      (Number.multiply (.finite (index : ℚ)) chunkSize)) =
      ofInt (manifest.plaintextLength index) := by
  have size := plaintextSize_lt manifest
  have start := Encrypted.Manifest.start_lt_plaintextSize inside
  have upper : eufChunkSize ⊓ (manifest.plaintextSize - index * eufChunkSize) ≤ eufChunkSize :=
    inf_le_left
  have whole : manifest.plaintextLength index =
      ((eufChunkSize ⊓ (manifest.plaintextSize - index * eufChunkSize) : Nat) : Int) := by
    rw [manifest.chunkSize_eq] at start
    rw [Encrypted.Manifest.plaintextLength, manifest.chunkSize_eq, Nat.cast_min,
      Nat.cast_sub start.le, Nat.cast_mul]
  rw [manifest.chunkSize_eq] at start
  rw [whole, plaintextSize_same same, chunkSize_eq_natCast, Number.multiply_natCast (by omega),
    Number.subtract_natCast (by omega) start.le, Number.min_natCast,
    ofInt_natCast (lt_of_le_of_lt upper (by decide))]

theorem expectedChunkLength_same (inside : index < manifest.chunkCount) :
    expectedChunkLength browser (ofInt index) =
      .ok (ofInt (manifest.plaintextLength index)) := by
  have count := manifest.chunkCount_lt
  have notLast : ¬ manifest.chunkCount ≤ index := by omega
  refine bind_eq (validateManifest_same same) ?_
  rw [ofInt_natCast (by omega), if_neg]
  · rw [expectedLength_same same inside]
  · rw [Number.isInteger_natCast, less_zero_natCast, chunkCount_same same,
      Number.atLeast_natCast]
    simp [notLast]

theorem index_of_expectedChunkLength {index length : Number}
    (accepted : expectedChunkLength browser index = .ok length) :
    ∃ position : Nat, position < manifest.chunkCount ∧ index = .finite (position : ℚ) := by
  unfold expectedChunkLength at accepted
  rw [bind_of_ok (validateManifest_same same)] at accepted
  split at accepted
  · cases accepted
  rename_i inRange
  rw [not_or, not_or, Bool.not_eq_false, Bool.not_eq_true, Bool.not_eq_true] at inRange
  obtain ⟨position, rfl⟩ := Number.isInteger_nonneg_iff.mp ⟨inRange.1, inRange.2.1⟩
  have last := inRange.2.2
  rw [chunkCount_same same, Number.atLeast_natCast, decide_eq_false_iff_not] at last
  exact ⟨position, not_le.mp last, rfl⟩

theorem index_of_ofInt {index : Int} {length : Number}
    (accepted : expectedChunkLength browser (ofInt index) = .ok length) :
    ∃ position : Nat, position < manifest.chunkCount ∧ index = position := by
  have count := manifest.chunkCount_lt
  obtain ⟨position, below, converted⟩ := index_of_expectedChunkLength same accepted
  exact ⟨position, below, (Number.ofInt_eq_iff (by omega)).mp converted⟩

theorem sizes_same :
    uint64 browser.plaintextSize "plaintextSize" = .ok (bigEndian 8 manifest.plaintextSize) ∧
      uint32 browser.chunkSize "chunkSize" = .ok (bigEndian 4 manifest.chunkSize) ∧
      uint32 browser.chunkCount "chunkCount" = .ok (bigEndian 4 manifest.chunkCount) := by
  have size := plaintextSize_lt manifest
  refine ⟨?_, ?_, ?_⟩
  · rw [plaintextSize_same same, uint64_natCast (by omega)]
  · rw [chunkSize_same same, manifest.chunkSize_eq, uint32_natCast (by decide)]
  · rw [chunkCount_same same, uint32_natCast manifest.chunkCount_lt]

theorem buildMetadataAad_same :
    (buildMetadataAad browser).toOption = manifest.metadataAad.toOption := by
  obtain ⟨size, chunk, count⟩ := sizes_same same
  have built : buildMetadataAad browser = .ok (metadataPrefix ++ manifest.fileId.bytes ++
      bigEndian 8 manifest.plaintextSize ++ bigEndian 4 manifest.chunkSize ++
      bigEndian 4 manifest.chunkCount) :=
    bind_eq (validateManifest_same same) (bind_eq (decodeFileId_same same)
      (bind_eq size (bind_eq chunk (bind_eq count rfl))))
  rw [built, manifest.metadataAad_eq]
  simp only [Except.toOption, metadataPrefix, Encrypted.metadataAadPrefix, layout,
    Encrypted.Manifest.metadataFields, flatMap_cons, flatMap_nil, Int.toNat_natCast,
    append_assoc, append_nil]

theorem buildNonce_same (index : Int) :
    (buildNonce browser (ofInt index)).toOption = (manifest.nonce index).toOption := by
  have counters := uint32_agrees index "index"
  unfold buildNonce Encrypted.Manifest.nonce
  rw [same.noncePrefix]
  cases left : uint32 (ofInt index) "index" with
  | error thrown =>
    cases right : packed [((4, index) : Field)] with
    | error failure => rfl
    | ok bytes =>
      rw [left, right] at counters
      cases counters
  | ok counter =>
    cases right : packed [((4, index) : Field)] with
    | error failure =>
      rw [left, right] at counters
      cases counters
    | ok bytes =>
      rw [left, right] at counters
      cases counters
      rfl

theorem buildChunkAad_same (index plaintextLength : Int) :
    (buildChunkAad browser (ofInt index) (ofInt plaintextLength)).toOption =
      (manifest.chunkAad index plaintextLength).toOption := by
  by_cases inside : 0 ≤ index ∧ index < manifest.chunkCount
  · obtain ⟨position, rfl⟩ := Int.eq_ofNat_of_zero_le inside.1
    have below : position < manifest.chunkCount := by omega
    have lower := manifest.plaintextLength_nonneg below
    have upper := manifest.plaintextLength_le position
    obtain ⟨length, isLength⟩ := Int.eq_ofNat_of_zero_le lower
    have short : length < 2 ^ 32 := by
      rw [isLength, eufChunkSize] at upper
      omega
    have safe : length < 2 ^ 53 := by omega
    unfold buildChunkAad
    rw [bind_of_ok (expectedChunkLength_same same below), isLength,
      ofInt_natCast safe, Number.strictEquals_ofInt safe]
    by_cases exact_ : plaintextLength = length
    · obtain ⟨size, chunk, count⟩ := sizes_same same
      have small : position < 2 ^ 32 := lt_trans below manifest.chunkCount_lt
      rw [if_neg (by simp [exact_]), exact_, bind_of_ok (decodeFileId_same same),
        bind_of_ok size, bind_of_ok chunk, bind_of_ok count,
        ofInt_natCast (show position < 2 ^ 53 by omega),
        bind_of_ok (uint32_natCast small "index"),
        ofInt_natCast safe,
        bind_of_ok (uint32_natCast short "plaintextLength"), ← isLength,
        manifest.chunkAad_eq below, isLength]
      simp only [Except.toOption, pure, Except.pure, chunkPrefix, Encrypted.chunkAadPrefix, layout,
        Encrypted.Manifest.chunkFields, Encrypted.Manifest.metadataFields, cons_append,
        nil_append, flatMap_cons, flatMap_nil, Int.toNat_natCast, append_assoc,
        append_nil]
    · have rejected : plaintextLength ≠ manifest.plaintextLength position := isLength ▸ exact_
      rw [if_pos (by simp [exact_]), Encrypted.Manifest.chunkAad, if_neg (by omega),
        if_pos rejected]
      rfl
  · have outside : index < 0 ∨ (manifest.chunkCount : Int) ≤ index := by omega
    rw [Encrypted.Manifest.chunkAad, if_pos outside]
    cases expected : expectedChunkLength browser (ofInt index) with
    | error thrown =>
      rw [buildChunkAad, expected]
      rfl
    | ok length =>
      obtain ⟨position, below, rfl⟩ := index_of_ofInt same expected
      omega

theorem resumeMessage_same (plaintext : Bytes) (index : Int) :
    (resumeMessage plaintext browser (ofInt index)).toOption =
      (Encrypted.resumeMessage plaintext manifest index).toOption := by
  have position := uint32_agrees index "index"
  have length := uint32_agrees plaintext.length "plaintextLength"
  unfold resumeMessage Encrypted.resumeMessage
  rw [bind_of_ok (decodeFileId_same same), toOption_bind, toOption_bind, packed_pair, position]
  cases (packed [((4, index) : Field)]).toOption with
  | none => rfl
  | some high =>
    rw [bind_some, toOption_bind, byteLength, length, bind_some]
    cases (packed [((4, (plaintext.length : Int)) : Field)]).toOption with
    | none => rfl
    | some low =>
      simp only [bind_some, map_some, pure, Except.pure, Except.toOption,
        resumePrefix, Encrypted.resumePrefix, append_assoc]

variable (aead : Aead)

theorem encryptChunk_same (plaintext key : Bytes) (index : Int) :
    (encryptChunk aead plaintext key browser (ofInt index)).toOption =
      (Encrypted.encryptChunk aead plaintext key manifest index).toOption := by
  have nonce := buildNonce_same same index
  have aad := buildChunkAad_same same index plaintext.length
  unfold encryptChunk Encrypted.encryptChunk
  simp only [toOption_bind, importAesKey_same, byteLength, nonce, aad]
  congr 1
  funext _
  exact bind_comm _ _

theorem tryDecryptChunk_same {key : Bytes} (length : key.length = 32) (ciphertext : Bytes)
    (inside : index < manifest.chunkCount) :
    ∃ nonce aad, manifest.nonce index = .ok nonce ∧
      manifest.chunkAad index (manifest.plaintextLength index) = .ok aad ∧
      (tryDecryptChunk aead ciphertext key browser (ofInt index)
        (ofInt (manifest.plaintextLength index))).toOption =
        some (aead.decrypt key nonce ciphertext aad) := by
  have nonce := buildNonce_same same index
  have aad := buildChunkAad_same same index (manifest.plaintextLength index)
  have counter := manifest.nonce_eq (lt_trans inside manifest.chunkCount_lt)
  have context := manifest.chunkAad_eq inside
  refine ⟨_, _, counter, context, ?_⟩
  unfold tryDecryptChunk
  simp only [toOption_bind, importAesKey_same, Encrypted.requireAesKey_eq_ok length, nonce, aad,
    counter, context]
  rfl

theorem decryptChunk_same {key : Bytes} (length : key.length = 32) (ciphertext : Bytes)
    (index : Int) :
    (decryptChunk aead ciphertext key browser (ofInt index)).toOption =
      (Encrypted.decryptChunk aead ciphertext key manifest index).toOption := by
  unfold Encrypted.decryptChunk
  rw [bind_of_ok (Encrypted.requireAesKey_eq_ok length)]
  by_cases inside : 0 ≤ index ∧ index < manifest.chunkCount
  · obtain ⟨position, rfl⟩ := Int.eq_ofNat_of_zero_le inside.1
    have below : position < manifest.chunkCount := by omega
    obtain ⟨nonce, aad, counter, context, opened⟩ :=
      tryDecryptChunk_same same aead length ciphertext below
    have upper := manifest.plaintextLength_le position
    obtain ⟨size, isSize⟩ := Int.eq_ofNat_of_zero_le (manifest.plaintextLength_nonneg below)
    rw [isSize, eufChunkSize] at upper
    have sealedLength : (ofInt (manifest.plaintextLength position)).add (.finite 16) =
        .finite ((size + 16 : Nat) : ℚ) := by
      rw [isSize, ofInt_natCast (show size < 2 ^ 53 by omega)]
      exact Number.add_natCast (show size + 16 < 2 ^ 53 by omega)
    unfold decryptChunk
    rw [bind_of_ok (expectedChunkLength_same same below), bind_of_ok context,
      byteLength, sealedLength, Number.strictEquals_ofInt (by omega), opened]
    by_cases exact_ : ciphertext.length = size + 16
    · rw [if_neg (by simp [exact_]), if_neg (by rw [isSize, exact_]; simp [eufGcmTagSize]),
        bind_of_ok counter]
      rfl
    have different : (ciphertext.length : Int) ≠ ((size + 16 : Nat) : Int) := by omega
    rw [if_pos (decide_eq_false different), if_pos]
    · rfl
    · rw [isSize, eufGcmTagSize]
      exact_mod_cast exact_
  · have outside : index < 0 ∨ (manifest.chunkCount : Int) ≤ index := by omega
    rw [Encrypted.Manifest.chunkAad, if_pos outside]
    cases expected : expectedChunkLength browser (ofInt index) with
    | error thrown =>
      rw [decryptChunk, expected]
      rfl
    | ok size =>
      obtain ⟨position, below, rfl⟩ := index_of_ofInt same expected
      omega

theorem decryptChunk_opens_same (ciphertext key opened : Bytes) (index : Int) :
    decryptChunk aead ciphertext key browser (ofInt index) = .ok (some opened) ↔
      Encrypted.decryptChunk aead ciphertext key manifest index = .ok (some opened) := by
  by_cases length : key.length = 32
  · rw [← toOption_eq_some, ← toOption_eq_some, decryptChunk_same same aead length]
  have refused : importAesKey key =
    .error (.rangeError "content key must contain exactly 32 bytes") :=
    if_pos length
  have serverRefused : Encrypted.requireAesKey key =
      .error (.validation "AES content key must contain exactly 32 bytes") := if_neg length
  have notServer : Encrypted.decryptChunk aead ciphertext key manifest index ≠ .ok
    (some opened) := by
    rw [Encrypted.decryptChunk, serverRefused]
    exact fun opens => nomatch opens
  refine iff_of_false ?_ notServer
  unfold decryptChunk
  cases expectedChunkLength browser (ofInt index) with
  | error thrown => exact fun opens => nomatch opens
  | ok size =>
    rw [bind_of_ok rfl, tryDecryptChunk, refused]
    split
    all_goals exact fun opens => nomatch opens

theorem computeResumeMac_same (hmac : Bytes → Bytes → Bytes) (plaintext key : Bytes) (index : Int) :
    (computeResumeMac hmac plaintext key browser (ofInt index)).toOption =
      (Encrypted.computeResumeMac hmac plaintext key manifest index).toOption := by
  have aad := buildChunkAad_same same index plaintext.length
  unfold computeResumeMac Encrypted.computeResumeMac
  by_cases length : key.length = 32
  · rw [if_neg (not_not.mpr length), if_neg (not_not.mpr length)]
    simp only [toOption_bind, byteLength, aad, resumeMessage_same same]
    rfl
  · rw [if_pos length, if_pos length, toOption_bind]
    exact bind_fun_none _

theorem metadataNonce_same :
    (buildNonce browser metadataIndex).toOption =
      (manifest.nonce Encrypted.eufMetadataIndex).toOption := by
  have number : metadataIndex = ofInt Encrypted.eufMetadataIndex := by
    rw [metadataIndex, ofInt_natCast (by decide), Encrypted.eufMetadataIndex]
    norm_num
  rw [number, buildNonce_same same]

theorem encryptMetadata_same (plaintext key : Bytes) :
    (encryptMetadata aead plaintext key browser).toOption =
      (Encrypted.encryptMetadata aead plaintext key manifest).toOption := by
  have nonce := metadataNonce_same same
  have aad := buildMetadataAad_same same
  obtain ⟨counter, context, isCounter, isContext⟩ := Encrypted.metadataContext manifest
  have limit : maxMetadataSize = Encrypted.eufMaxMetadataSize := by decide
  unfold encryptMetadata Encrypted.encryptMetadata
  rw [isCounter] at nonce
  rw [limit, isCounter, bind_of_ok rfl]
  by_cases long : Encrypted.eufMaxMetadataSize < plaintext.length
  · rw [if_pos long, if_pos long]
    simp only [toOption_bind, toOption_error, bind_fun_none]
  rw [if_neg long, if_neg long]
  simp only [toOption_bind, importAesKey_same, nonce, toOption_ok, bind_some]
  simp only [aad, isContext, toOption_ok, bind_some, pure, Except.pure]

variable {aead} in
theorem decryptMetadata_same (correct : aead.Correct) {plaintext key ciphertext : Bytes}
    (isSealed : Encrypted.encryptMetadata aead plaintext key manifest = .ok ciphertext) :
    decryptMetadata aead ciphertext key browser = some plaintext := by
  obtain ⟨length, _, nonce, aad, isNonce, isAad, rfl⟩ := Encrypted.encryptMetadata_eq_ok isSealed
  have counter := metadataNonce_same same
  have context := buildMetadataAad_same same
  rw [isNonce, toOption_eq_some.mpr rfl, toOption_eq_some] at counter
  rw [isAad, toOption_eq_some.mpr rfl, toOption_eq_some] at context
  have imported : importAesKey key = .ok () := if_neg (not_not.mpr length)
  rw [decryptMetadata, tryDecryptMetadata, bind_of_ok imported, bind_of_ok counter,
    bind_of_ok context, correct.decrypt_encrypt]
  rfl

/-- The browser rejects a fraction, an infinity and `NaN` wherever it takes an integer. -/
theorem fraction_rejected {number : Number} (fraction : ∀ integer : Int, number ≠ .finite integer) :
    expectedChunkLength browser number = .error
      (.rangeError "chunk index is outside the manifest") ∧
      buildNonce browser number =
        .error (.rangeError "index must be an unsigned 32-bit integer") := by
  have notInteger : number.isInteger = false := by
    cases whole : number.isInteger with
    | false => rfl
    | true =>
      obtain ⟨integer, isInteger⟩ := Number.exists_of_isInteger whole
      exact absurd isInteger (fraction integer)
  constructor
  · unfold expectedChunkLength
    rw [bind_of_ok (validateManifest_same same), if_pos (Or.inl notInteger)]
  · unfold buildNonce uint32
    rw [if_pos (Or.inl notInteger)]
    rfl

end Manifests

/-- The same geometry, nonces, contexts and messages, and the same rejections. -/
structure FormatsAgree (manifest : Encrypted.Manifest) (browser : Manifest) : Prop where
  accepted : validateManifest browser = .ok ()
  chunkLength : ∀ index : Int, (expectedChunkLength browser (ofInt index)).toOption =
    if 0 ≤ index ∧ index < manifest.chunkCount then
      some (ofInt (manifest.plaintextLength index))
    else none
  nonce : ∀ index : Int,
    (buildNonce browser (ofInt index)).toOption = (manifest.nonce index).toOption
  chunkAad : ∀ index plaintextLength : Int,
    (buildChunkAad browser (ofInt index) (ofInt plaintextLength)).toOption =
      (manifest.chunkAad index plaintextLength).toOption
  metadataAad : (buildMetadataAad browser).toOption = manifest.metadataAad.toOption
  resumeMessage : ∀ (plaintext : Bytes) (index : Int),
    (resumeMessage plaintext browser (ofInt index)).toOption =
      (Encrypted.resumeMessage plaintext manifest index).toOption
  fraction : ∀ number : Number, (∀ integer : Int, number ≠ .finite integer) →
    (expectedChunkLength browser number).toOption = none ∧
      (buildNonce browser number).toOption = none ∧
      ∀ length : Number, (buildChunkAad browser number length).toOption = none

/-- The same ciphertexts and codes, so that each side opens what the other has sealed. -/
structure CiphersAgree (aead : Aead) (hmac : Bytes → Bytes → Bytes) (manifest : Encrypted.Manifest)
    (browser : Manifest) : Prop where
  encryptChunk : ∀ (plaintext key : Bytes) (index : Int),
    (encryptChunk aead plaintext key browser (ofInt index)).toOption =
      (Encrypted.encryptChunk aead plaintext key manifest index).toOption
  decryptChunk : ∀ (ciphertext key opened : Bytes) (index : Int),
    decryptChunk aead ciphertext key browser (ofInt index) = .ok (some opened) ↔
      Encrypted.decryptChunk aead ciphertext key manifest index = .ok (some opened)
  computeResumeMac : ∀ (plaintext key : Bytes) (index : Int),
    (computeResumeMac hmac plaintext key browser (ofInt index)).toOption =
      (Encrypted.computeResumeMac hmac plaintext key manifest index).toOption
  encryptMetadata : ∀ plaintext key : Bytes,
    (encryptMetadata aead plaintext key browser).toOption =
      (Encrypted.encryptMetadata aead plaintext key manifest).toOption
  openedByServer : ∀ (plaintext key ciphertext : Bytes) (index : Int),
    Ui.encryptChunk aead plaintext key browser (ofInt index) = .ok ciphertext →
      Encrypted.decryptChunk aead ciphertext key manifest index = .ok (some plaintext)
  openedByBrowser : ∀ (plaintext key ciphertext : Bytes) (index : Int),
    Encrypted.encryptChunk aead plaintext key manifest index = .ok ciphertext →
      Ui.decryptChunk aead ciphertext key browser (ofInt index) = .ok (some plaintext)
  metadataOpenedByServer : ∀ plaintext key : Bytes,
    Ui.encryptMetadata aead plaintext key browser = .ok manifest.encryptedMetadata →
      Encrypted.decryptMetadata aead key manifest = .ok (some plaintext)
  metadataOpenedByBrowser : ∀ plaintext key ciphertext : Bytes,
    Encrypted.encryptMetadata aead plaintext key manifest = .ok ciphertext →
      decryptMetadata aead ciphertext key browser = some plaintext

variable {manifest : Encrypted.Manifest}

theorem formatsAgree {browser : Manifest}
    (same : SameFields manifest browser) : FormatsAgree manifest browser where
  accepted := validateManifest_same same
  chunkLength index := by
    by_cases inside : 0 ≤ index ∧ index < manifest.chunkCount
    · obtain ⟨position, rfl⟩ := Int.eq_ofNat_of_zero_le inside.1
      rw [if_pos inside, expectedChunkLength_same same (by omega)]
      rfl
    rw [if_neg inside]
    cases expected : expectedChunkLength browser (ofInt index) with
    | error thrown => rfl
    | ok length =>
      obtain ⟨position, below, rfl⟩ := index_of_ofInt same expected
      omega
  nonce := buildNonce_same same
  chunkAad := buildChunkAad_same same
  metadataAad := buildMetadataAad_same same
  resumeMessage := resumeMessage_same same
  fraction number fraction := by
    obtain ⟨length, nonce⟩ := fraction_rejected same fraction
    rw [length, nonce]
    refine ⟨rfl, rfl, ?_⟩
    intro other
    rw [buildChunkAad, length]
    rfl

theorem ciphersAgree {aead : Aead} (correct : aead.Correct) (hmac : Bytes → Bytes → Bytes)
    {browser : Manifest} (same : SameFields manifest browser) :
    CiphersAgree aead hmac manifest browser where
  encryptChunk := encryptChunk_same same aead
  decryptChunk := decryptChunk_opens_same same aead
  computeResumeMac := computeResumeMac_same same hmac
  encryptMetadata := encryptMetadata_same same aead
  openedByServer plaintext key ciphertext index isSealed := by
    have sealedSame := encryptChunk_same same aead plaintext key index
    rw [toOption_eq_some.mpr isSealed] at sealedSame
    exact Encrypted.decryptChunk_encryptChunk correct (toOption_eq_some.mp sealedSame.symm)
  openedByBrowser plaintext key ciphertext index isSealed :=
    (decryptChunk_opens_same same aead ciphertext key plaintext index).mpr
      (Encrypted.decryptChunk_encryptChunk correct isSealed)
  metadataOpenedByServer plaintext key isSealed := by
    have sealedSame := encryptMetadata_same same aead plaintext key
    rw [toOption_eq_some.mpr isSealed] at sealedSame
    exact Encrypted.decryptMetadata_of_sealed correct (toOption_eq_some.mp sealedSame.symm)
  metadataOpenedByBrowser plaintext key ciphertext isSealed :=
    decryptMetadata_same same correct isSealed

theorem implementations_agree (aead : Aead) (correct : aead.Correct)
    (hmac : Bytes → Bytes → Bytes) :
    (∀ (manifest : Encrypted.Manifest) (browser : Manifest), SameFields manifest browser →
      FormatsAgree manifest browser ∧ CiphersAgree aead hmac manifest browser) ∧
    (∀ (text : List CodePoint) (field : String),
      (decodeBase64Url (utf16 text) field).toOption =
        (Encrypted.b64urlDecode field (codesOf text)).toOption) ∧
    ∀ text : List CodePoint,
      (decodeFileId (utf16 text)).toOption = (Encrypted.fileIdBytes (codesOf text)).toOption :=
  ⟨fun _ _ same => ⟨formatsAgree same, ciphersAgree correct hmac same⟩, decodeBase64Url_agrees,
    decodeFileId_agrees⟩

def vectorBrowserManifest : Manifest :=
  { version := .finite ((1 : Nat) : ℚ)
    fileId := JavaScript.literal "00112233445566778899aabbccddeeff".toList
    plaintextSize := .finite ((20 : Nat) : ℚ)
    chunkSize := .finite ((8388608 : Nat) : ℚ)
    chunkCount := .finite ((1 : Nat) : ℚ)
    salt := (range 16).map UInt8.ofNat
    noncePrefix := Packing.fromHex "a0a1a2a3a4a5a6a7".toList }

theorem vectorFileId_same :
    JavaScript.literal "00112233445566778899aabbccddeeff".toList =
      utf16 (pointsOf "00112233445566778899aabbccddeeff".toList) := by
  decide +kernel

theorem vectorManifest_same (metadataByte : UInt8) :
    SameFields (Encrypted.vectorManifest metadataByte) vectorBrowserManifest where
  version := (ofInt_natCast (by decide)).symm
  fileId := vectorFileId_same
  plaintextSize := (ofInt_natCast (by decide)).symm
  chunkSize := (ofInt_natCast (by decide)).symm
  chunkCount := (ofInt_natCast (by decide)).symm
  salt := rfl
  noncePrefix := rfl

/-- What the server seals in the vector is opened in the browser. -/
theorem vectorChunk_opened :
    decryptChunk Encrypted.vectorAead Encrypted.vectorCiphertext Encrypted.vectorKey
      vectorBrowserManifest (ofInt 0) = .ok (some Encrypted.vectorPlaintext) :=
  ((implementations_agree Encrypted.vectorAead Encrypted.vectorAead_correct fun _ message =>
    message).1 _ _ (vectorManifest_same 120)).2.openedByBrowser _ _ _ _
      Encrypted.vectorChunk_encrypted

end XFerry.Ui
