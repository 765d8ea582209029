/-
What the decoder of journals does with any bytes at all.

Two of the things it calls raise exceptions of their own: `int()` and the length of a
chunk for a chunk that is none of the manifest's, and `float()` for a long integer.
-/

import XFerry.Encrypted.JournalText
import XFerry.Ensures
import XFerry.Json.Members

namespace XFerry.Encrypted

open Json Python List Ensures

def IsCorrupt (failure : StateError) : Prop := ∃ message, failure = corrupt message

theorem isCorrupt_corrupt (message : String) : IsCorrupt (corrupt message) := ⟨message, rfl⟩

theorem require_failsOnly (condition : Prop) [Decidable condition] (message : String) :
    FailsOnly (require condition (corrupt message)) IsCorrupt :=
  .ite (.ok ()) (.error (isCorrupt_corrupt message))

theorem requireObject_failsOnly (value : Value) (message : String) :
    FailsOnly (requireObject value message) IsCorrupt := by
  unfold requireObject
  split
  · exact .ok _
  · exact .error (isCorrupt_corrupt message)

theorem requireString_failsOnly (value : Value) (message : String) :
    FailsOnly (requireString value message) IsCorrupt := by
  unfold requireString
  split
  · exact .ok _
  · exact .error (isCorrupt_corrupt message)

theorem requireInt_failsOnly (value : Value) (field : String) :
    FailsOnly (requireInt value field) IsCorrupt := by
  unfold requireInt
  split
  · exact .ite (.error (isCorrupt_corrupt _)) (.ok _)
  · exact .error (isCorrupt_corrupt _)

theorem decodeBytes_failsOnly (text : Str) (message : String) :
    FailsOnly (decodeBytes text message) IsCorrupt := by
  unfold decodeBytes
  split
  · exact .error (isCorrupt_corrupt message)
  · exact .ok _

theorem requireTimestamp_failsOnly (float : PyFloat) (field : String) :
    FailsOnly (requireTimestamp float field) IsCorrupt := by
  unfold requireTimestamp
  split
  · split
    · exact .ok _
    · exact .error (isCorrupt_corrupt _)
  all_goals exact .error (isCorrupt_corrupt _)

theorem decodeStatus_failsOnly (value : Value) : FailsOnly (decodeStatus value) IsCorrupt := by
  unfold decodeStatus
  split
  · exact .ite (.ok _) (.ite (.ok _) (.ite (.ok _) (.error (isCorrupt_corrupt _))))
  · exact .error (isCorrupt_corrupt _)

theorem decodeManifest_failsOnly (raw : Value) : FailsOnly (decodeManifest raw) IsCorrupt := by
  refine .bind (requireObject_failsOnly _ _) fun members => ?_
  refine .bind (require_failsOnly _ _) fun _ => ?_
  refine .bind (requireString_failsOnly _ _) fun fileId => ?_
  refine .bind (requireString_failsOnly _ _) fun saltText => ?_
  refine .bind (requireString_failsOnly _ _) fun nonceText => ?_
  refine .bind (requireString_failsOnly _ _) fun metadataText => ?_
  refine .bind (requireInt_failsOnly _ _) fun version => ?_
  refine .bind (requireInt_failsOnly _ _) fun plaintextSize => ?_
  refine .bind (requireInt_failsOnly _ _) fun chunkSize => ?_
  refine .bind (requireInt_failsOnly _ _) fun chunkCount => ?_
  refine .bind (decodeBytes_failsOnly _ _) fun salt => ?_
  refine .bind (decodeBytes_failsOnly _ _) fun noncePrefix => ?_
  refine .bind (decodeBytes_failsOnly _ _) fun metadata => ?_
  split
  · exact .error (isCorrupt_corrupt _)
  · exact .ok _

theorem loadState_failsOnly (levels : Nat) (raw : Bytes) :
    FailsOnly (loadState levels raw) IsCorrupt := by
  unfold loadState
  split
  · exact .error (isCorrupt_corrupt _)
  split
  · exact .error (isCorrupt_corrupt _)
  · exact .ok _

theorem decodeHeader_failsOnly (levels : Nat) (raw : Bytes) (expectedFileId : List Char) :
    FailsOnly (decodeHeader levels raw expectedFileId) IsCorrupt := by
  refine .bind (require_failsOnly _ _) fun _ => ?_
  refine .bind (loadState_failsOnly _ _) fun decoded => ?_
  refine .bind (requireObject_failsOnly _ _) fun members => ?_
  refine .bind (require_failsOnly _ _) fun _ => ?_
  refine .bind (requireInt_failsOnly _ _) fun schema => ?_
  refine .bind (require_failsOnly _ _) fun _ => ?_
  refine .bind (decodeStatus_failsOnly _) fun status => ?_
  refine .bind (decodeManifest_failsOnly _) fun manifest => ?_
  refine .bind (require_failsOnly _ _) fun _ => ?_
  exact .bind (requireObject_failsOnly _ _) fun chunks => .ok _

theorem decodeChunkState_failsOnly (raw : Value) (index expectedLength : Nat) :
    FailsOnly (decodeChunkState raw index expectedLength) IsCorrupt := by
  refine .bind (requireObject_failsOnly _ _) fun members => ?_
  refine .bind (require_failsOnly _ _) fun _ => ?_
  refine .bind (requireInt_failsOnly _ _) fun length => ?_
  refine .bind (require_failsOnly _ _) fun _ => ?_
  refine .bind (requireString_failsOnly _ _) fun macText => ?_
  refine .bind (requireString_failsOnly _ _) fun hashText => ?_
  refine .bind (decodeBytes_failsOnly _ _) fun resumeMac => ?_
  refine .bind (decodeBytes_failsOnly _ _) fun ciphertextHash => ?_
  exact .bind (require_failsOnly _ _) fun _ => .ok _

/-- A canonical decimal number that is none of a chunk of the manifest, or too long for
`int()`. -/
def IsForeignChunk (manifest : Manifest) (text : Str) : Prop :=
  IsChunkName text ∧ (maxStrDigits < text.length ∨ manifest.chunkCount ≤ chunkIndex text)

variable {text : Str}

theorem parseChunkIndex_of_not_lt (short : ¬ maxStrDigits < text.length) :
    parseChunkIndex text = .ok (chunkIndex text) := if_neg short

variable {manifest : Manifest}

theorem expectedChunkLength_of_lt {index : Nat} (inside : index < manifest.chunkCount) :
    expectedChunkLength manifest index = .ok (manifest.chunkLength index) := by
  simp only [expectedChunkLength, Manifest.encryptedChunkLength_of_lt inside]

theorem expectedChunkLength_of_le {index : Nat} (outside : manifest.chunkCount ≤ index) :
    expectedChunkLength manifest index =
      .error (.storage (.validation "chunk index is outside the manifest")) := by
  have beyond : (index : Int) < 0 ∨ (manifest.chunkCount : Int) ≤ index := by omega
  simp only [expectedChunkLength, Manifest.encryptedChunkLength, if_pos beyond]

theorem not_isCorrupt_overflowError : ¬ IsCorrupt .overflowError := by
  rintro ⟨message, same⟩
  cases same

/-- `ValueError`, or `EncryptedTransferValidationError`. -/
def IsForeign (failure : StateError) : Prop :=
  failure = .valueError ∨ ∃ message, failure = .storage (.validation message)

theorem IsForeign.not_isCorrupt {failure : StateError} (isForeign : IsForeign failure) :
    ¬ IsCorrupt failure := by
  rintro ⟨message, rfl⟩
  rcases isForeign with same | ⟨other, same⟩
  · cases same
  · cases same

theorem not_isForeign_overflowError : ¬ IsForeign .overflowError := by
  rintro (same | ⟨message, same⟩)
  · cases same
  · cases same

variable {raw : Str × Value}

theorem decodeStoredChunk_of_foreign (foreign : IsForeignChunk manifest raw.1) :
    ∃ failure, decodeStoredChunk manifest raw = .error failure ∧ IsForeign failure := by
  obtain ⟨isName, beyond⟩ := foreign
  unfold decodeStoredChunk
  rw [require, if_pos isName, bind_of_ok rfl]
  by_cases long : maxStrDigits < raw.1.length
  · rw [parseChunkIndex, if_pos long]
    exact ⟨_, rfl, .inl rfl⟩
  rw [parseChunkIndex_of_not_lt long, bind_of_ok rfl,
    expectedChunkLength_of_le (beyond.resolve_left long)]
  exact ⟨_, rfl, .inr ⟨_, rfl⟩⟩

theorem decodeStoredChunk_failsOnly (native : ¬ IsForeignChunk manifest raw.1) :
    FailsOnly (decodeStoredChunk manifest raw) IsCorrupt := by
  by_cases isName : IsChunkName raw.1
  · have within : ¬ (maxStrDigits < raw.1.length ∨ manifest.chunkCount ≤ chunkIndex raw.1) :=
      fun beyond => native ⟨isName, beyond⟩
    rw [not_or] at within
    unfold decodeStoredChunk
    rw [require, if_pos isName, bind_of_ok rfl, parseChunkIndex_of_not_lt within.1,
      bind_of_ok rfl, expectedChunkLength_of_lt (Nat.lt_of_not_le within.2),
      bind_of_ok rfl]
    exact decodeChunkState_failsOnly _ _ _
  · unfold decodeStoredChunk
    rw [require, if_neg isName]
    exact .error (isCorrupt_corrupt _)

def ForeignChunkFirst (manifest : Manifest) (chunks : Members) : Prop :=
  ∃ before foreign after, chunks = before ++ foreign :: after ∧
    (∀ raw ∈ before, ∃ chunk, decodeStoredChunk manifest raw = .ok chunk) ∧
      IsForeignChunk manifest foreign.1

theorem decodeStoredChunks_of_foreignFirst {chunks : Members}
    (foreignFirst : ForeignChunkFirst manifest chunks) :
    ∃ failure, decodeStoredChunks manifest chunks = .error failure ∧ IsForeign failure := by
  obtain ⟨before, foreign, after, rfl, accepted, isForeign⟩ := foreignFirst
  induction before with
  | nil =>
    obtain ⟨failure, raised, other⟩ := decodeStoredChunk_of_foreign isForeign
    refine ⟨failure, ?_, other⟩
    rw [nil_append, decodeStoredChunks, raised]
    rfl
  | cons raw rest ih =>
    obtain ⟨chunk, decoded⟩ := accepted raw (mem_cons_self ..)
    obtain ⟨failure, raised, other⟩ := ih fun next member =>
      accepted next (mem_cons_of_mem _ member)
    refine ⟨failure, ?_, other⟩
    rw [cons_append, decodeStoredChunks, bind_of_ok decoded, raised]
    rfl

theorem ForeignChunkFirst.cons {rest : Members}
    {chunk : StoredChunk} (decoded : decodeStoredChunk manifest raw = .ok chunk)
    (foreignFirst : ForeignChunkFirst manifest rest) :
    ForeignChunkFirst manifest (raw :: rest) := by
  obtain ⟨before, foreign, after, rfl, accepted, isForeign⟩ := foreignFirst
  exact ⟨raw :: before, foreign, after, rfl,
    forall_mem_cons.mpr ⟨⟨chunk, decoded⟩, accepted⟩, isForeign⟩

theorem decodeStoredChunks_failsOnly {chunks : Members}
    (native : ¬ ForeignChunkFirst manifest chunks) :
    FailsOnly (decodeStoredChunks manifest chunks) IsCorrupt := by
  induction chunks with
  | nil => exact .ok _
  | cons raw rest ih =>
    have here : ¬ IsForeignChunk manifest raw.1 := fun isForeign =>
      native ⟨[], raw, rest, rfl, forall_mem_nil _, isForeign⟩
    rw [decodeStoredChunks]
    cases decoded : decodeStoredChunk manifest raw with
    | error failure => exact .error (decodeStoredChunk_failsOnly here failure decoded)
    | ok chunk =>
      have others := ih fun foreignFirst => native (foreignFirst.cons decoded)
      rw [bind_of_ok rfl]
      exact .bind others fun _ => .ok _

theorem ensures_require {α : Type} {condition : Prop} [Decidable condition]
    {error : StateError} {next : Unit → Except StateError α} {post : α → Prop}
    (rest : condition → Ensures (next ()) post) : Ensures
    (require condition error >>= next) post := by
  unfold require
  split
  · case isTrue holds => exact rest holds
  · exact .error _

theorem IsChunkName.isWhole (isName : IsChunkName text) : IsWhole (text.map Char.ofNat) := by
  obtain ⟨nonempty, zero | ⟨digits, leading⟩⟩ := isName
  · rw [zero]
    exact ⟨by decide, by decide, .inl rfl⟩
  have table : ∀ code, code < 58 → (Char.ofNat code).toNat = code := by decide
  have code : ∀ code ∈ text, (Char.ofNat code).toNat = code :=
    fun code member => table code (Nat.lt_succ_of_le (digits code member).2)
  constructor
  case digits =>
    intro char member
    obtain ⟨digit, inside, rfl⟩ := mem_map.mp member
    have range := digits digit inside
    rw [← code digit inside] at range
    exact decide_eq_true range
  case nonempty => exact fun empty => nonempty (map_eq_nil_iff.mp empty)
  case canonical =>
    right
    rw [head?_map]
    intro same
    obtain ⟨first, isHead, isZero⟩ := Option.map_eq_some_iff.mp same
    have back := code first (mem_of_mem_head? isHead)
    rw [isZero] at back
    have isFortyEight : first = 48 := back.symm
    rw [isFortyEight] at isHead
    exact leading isHead

theorem IsChunkName.eq_of_chunkIndex_eq {first second : Str} (left : IsChunkName first)
    (right : IsChunkName second) (same : chunkIndex first = chunkIndex second) :
    first.map Char.ofNat = second.map Char.ofNat := by
  rw [← toDigits_ofDigitChars left.isWhole, ← toDigits_ofDigitChars right.isWhole]
  exact congrArg (Nat.toDigits 10) same

theorem IsChunkName.map_toNat (isName : IsChunkName text) :
    (text.map Char.ofNat).map Char.toNat = text := by
  have table : ∀ code, code < 58 → (Char.ofNat code).toNat = code := by decide
  rw [map_map]
  refine (map_congr_left ?_).trans (map_id text)
  intro code member
  obtain ⟨_, zero | ⟨digits, _⟩⟩ := isName
  · rw [zero] at member
    rw [mem_singleton.mp member]
    rfl
  · exact table code (Nat.lt_succ_of_le (digits code member).2)

theorem chunkIndex_injOn {first second : Str} (left : IsChunkName first)
    (right : IsChunkName second) (same : chunkIndex first = chunkIndex second) :
    first = second := by
  rw [← left.map_toNat, ← right.map_toNat, left.eq_of_chunkIndex_eq right same]

theorem decodeChunkState_ensures (raw : Value) (index expectedLength : Nat) :
    Ensures (decodeChunkState raw index expectedLength) fun chunk =>
      chunk.index = index ∧ chunk.length = expectedLength ∧ chunk.resumeMac.length = 32 ∧
        chunk.ciphertextSha256.length = 32 := by
  refine .andThen fun members => ?_
  refine .andThen fun _ => ?_
  refine .andThen fun length => ?_
  refine ensures_require fun sameLength => ?_
  refine .andThen fun macText => ?_
  refine .andThen fun hashText => ?_
  refine .andThen fun resumeMac => ?_
  refine .andThen fun ciphertextHash => ?_
  refine ensures_require fun lengths => ?_
  exact .ok ⟨rfl, sameLength, lengths.1, lengths.2⟩

/-- A chunk that is accepted has the number of its name, and fits the manifest. -/
structure DecodedFrom (manifest : Manifest) (raw : Str × Value) (chunk : StoredChunk) : Prop where
  isName : IsChunkName raw.1
  index_eq : chunk.index = chunkIndex raw.1
  fits : chunk.Fits manifest

theorem decodeStoredChunk_ensures (manifest : Manifest) (raw : Str × Value) :
    Ensures (decodeStoredChunk manifest raw) (DecodedFrom manifest raw) := by
  refine ensures_require fun isName => ?_
  unfold parseChunkIndex
  split
  · exact .error _
  rw [bind_of_ok rfl]
  by_cases inside : chunkIndex raw.1 < manifest.chunkCount
  · rw [expectedChunkLength_of_lt inside, bind_of_ok rfl]
    refine (decodeChunkState_ensures _ _ _).imp ?_
    rintro chunk ⟨index, length, resumeMac, sha256⟩
    rw [← index] at inside length
    exact
      { isName := isName
        index_eq := index
        fits :=
          { inside := inside
            length_eq := length
            resumeMac_length := resumeMac
            sha256_length := sha256 } }
  · rw [expectedChunkLength_of_le (Nat.le_of_not_lt inside)]
    exact .error _

theorem decodeStoredChunks_ensures (manifest : Manifest) (chunks : Members) :
    Ensures (decodeStoredChunks manifest chunks) (List.Forall₂ (DecodedFrom manifest) chunks) := by
  induction chunks with
  | nil => exact .ok .nil
  | cons raw rest ih =>
    refine .bind (decodeStoredChunk_ensures manifest raw) fun chunk decoded => ?_
    refine .bind ih fun others decodedOthers => ?_
    exact .ok (.cons decoded decodedOthers)

variable {chunks : List StoredChunk}

theorem exists_of_decodedFrom {raws : Members}
    (decoded : List.Forall₂ (DecodedFrom manifest) raws chunks) {chunk : StoredChunk}
    (member : chunk ∈ chunks) : ∃ raw ∈ raws, DecodedFrom manifest raw chunk := by
  induction decoded with
  | nil => cases member
  | @cons raw other _ _ here _ ih =>
    rcases mem_cons.mp member with rfl | inRest
    · exact ⟨raw, mem_cons_self .., here⟩
    · obtain ⟨found, inside, isDecoded⟩ := ih inRest
      exact ⟨found, mem_cons_of_mem _ inside, isDecoded⟩

theorem nodup_of_decodedFrom {raws : Members}
    (decoded : List.Forall₂ (DecodedFrom manifest) raws chunks)
    (distinct : (raws.map Prod.fst).Nodup) : (chunks.map StoredChunk.index).Nodup := by
  induction decoded with
  | nil => exact nodup_nil
  | cons here others ih =>
    rw [map_cons, nodup_cons] at distinct ⊢
    refine ⟨?_, ih distinct.2⟩
    intro again
    obtain ⟨other, member, same⟩ := mem_map.mp again
    obtain ⟨raw, present, isDecoded⟩ := exists_of_decodedFrom others member
    have names := chunkIndex_injOn here.isName isDecoded.isName
      (here.index_eq.symm.trans (same.symm.trans isDecoded.index_eq))
    apply distinct.1
    rw [names]
    exact mem_map_of_mem present

theorem decodeHeader_ensures (levels : Nat) (raw : Bytes) (expectedFileId : List Char) :
    Ensures (decodeHeader levels raw expectedFileId) fun header =>
      header.manifest.fileId.text = expectedFileId ∧ (header.chunks.map Prod.fst).Nodup := by
  refine .andThen fun _ => ?_
  have unambiguous : Ensures (loadState levels raw) Value.Unambiguous := by
    unfold loadState
    split
    · exact .error _
    split
    · exact .error _
    · case h_2 loaded => exact .ok (loads_unambiguous loaded)
  refine .bind unambiguous fun decoded unambiguous => ?_
  have isObject : Ensures (requireObject decoded "invalid state object") fun members =>
      (Value.object members).Unambiguous := by
    unfold requireObject
    split
    · exact .ok unambiguous
    · exact .error _
  refine .bind isObject fun members unambiguous => ?_
  refine .andThen fun _ => ?_
  refine .andThen fun schema => ?_
  refine .andThen fun _ => ?_
  refine .andThen fun status => ?_
  refine .andThen fun manifest => ?_
  refine ensures_require fun sameFileId => ?_
  have distinct : Ensures (requireObject (field members "received_chunks")
      "invalid received_chunks") fun chunks => (chunks.map Prod.fst).Nodup := by
    unfold field
    cases found : members.lookup (name "received_chunks") with
    | none => exact .error _
    | some value =>
      have inner := unambiguous.member found
      unfold requireObject
      rw [Option.getD_some]
      split
      · cases inner with
        | object distinct _ => exact .ok distinct
      · exact .error _
  refine .bind distinct fun chunks distinct => ?_
  exact .ok ⟨sameFileId, distinct⟩

theorem decodeTimestamps_ensures (header : StateHeader) :
    Ensures (decodeTimestamps header) fun times => times.1 ≤ times.2 := by
  refine .andThen fun createdAt => ?_
  refine .andThen fun updatedAt => ?_
  refine ensures_require fun inOrder => ?_
  exact .ok inOrder

theorem decodeEncryptedState_ensures (levels : Nat) (raw : Bytes) (expectedFileId : List Char) :
    Ensures (decodeEncryptedState levels raw expectedFileId) fun record =>
      record.fileId.text = expectedFileId ∧ record.WellFormed record.fileId := by
  refine .bind (decodeHeader_ensures levels raw expectedFileId) ?_
  rintro header ⟨sameFileId, distinct⟩
  refine .bind (decodeStoredChunks_ensures header.manifest header.chunks) fun chunks decoded => ?_
  refine ensures_require fun complete => ?_
  refine .bind (decodeTimestamps_ensures header) fun times inOrder => ?_
  have perm : (sortChunks chunks).Perm chunks := perm_insertionSort _ _
  refine .ok ⟨sameFileId, ?_⟩
  constructor
  case fileId_eq => rfl
  case chunks =>
    intro chunk member
    obtain ⟨raw, _, isDecoded⟩ := exists_of_decodedFrom decoded (perm.mem_iff.mp member)
    exact isDecoded.fits
  case ordered => exact sortChunks_ordered (nodup_of_decodedFrom decoded distinct)
  case final =>
    intro notPartial
    exact perm.length_eq.trans (complete.resolve_left notPartial)
  case timestamps => exact inOrder

def Overflows (value : Value) : Prop := ∃ number, value = .int number ∧ PyFloat.ofInt number = none

theorem requireNumber_of_overflows {value : Value} (overflows : Overflows value) (field : String) :
    requireNumber value field = .error .overflowError := by
  obtain ⟨number, rfl, tooLarge⟩ := overflows
  rw [requireNumber, tooLarge]

theorem requireNumber_failsOnly {value : Value} (fits : ¬ Overflows value) (field : String) :
    FailsOnly (requireNumber value field) IsCorrupt := by
  cases value with
  | int number =>
    rw [requireNumber]
    split
    · case h_1 tooLarge => exact absurd ⟨number, rfl, tooLarge⟩ fits
    · exact requireTimestamp_failsOnly _ _
  | float float => exact requireTimestamp_failsOnly _ _
  | null | boolean | string | array | object => exact .error (isCorrupt_corrupt _)

namespace StateHeader

def ChunksAccepted (header : StateHeader) : Prop :=
  (∃ chunks, decodeStoredChunks header.manifest header.chunks = .ok chunks) ∧
    (header.status = .partial_ ∨ header.chunks.length = header.manifest.chunkCount)

/-- The first timestamp that is refused is an integer that is too large for a float. -/
def OverflowsFirst (header : StateHeader) : Prop :=
  Overflows header.createdAt ∨
    (∃ createdAt, requireNumber header.createdAt "created_at" = .ok createdAt) ∧
      Overflows header.updatedAt

end StateHeader

theorem decodeTimestamps_of_overflowsFirst {header : StateHeader}
    (overflows : header.OverflowsFirst) : decodeTimestamps header = .error .overflowError := by
  rcases overflows with created | ⟨⟨createdAt, accepted⟩, updated⟩
  · unfold decodeTimestamps
    rw [requireNumber_of_overflows created]
    rfl
  unfold decodeTimestamps
  rw [bind_of_ok accepted, requireNumber_of_overflows updated]
  rfl

theorem decodeTimestamps_failsOnly {header : StateHeader} (fits : ¬ header.OverflowsFirst) :
    FailsOnly (decodeTimestamps header) IsCorrupt := by
  have created : ¬ Overflows header.createdAt := fun overflows => fits (.inl overflows)
  unfold decodeTimestamps
  cases accepted : requireNumber header.createdAt "created_at" with
  | error failure => exact .error (requireNumber_failsOnly created _ failure accepted)
  | ok createdAt =>
    have updated : ¬ Overflows header.updatedAt := fun overflows =>
      fits (.inr ⟨⟨createdAt, accepted⟩, overflows⟩)
    rw [bind_of_ok rfl]
    refine .bind (requireNumber_failsOnly updated _) fun updatedAt => ?_
    exact .bind (require_failsOnly _ _) fun _ => .ok _

/-- A well formed record, or `EncryptedStorageCorrupt`. -/
def Answers (expectedFileId : List Char) : Except StateError (Record Timestamp) → Prop
  | .ok record => record.fileId.text = expectedFileId ∧ record.WellFormed record.fileId
  | .error failure => IsCorrupt failure

/-- The journal passes every check before a chunk that its manifest does not have. -/
def ReachesForeignChunk (levels : Nat) (raw : Bytes) (expectedFileId : List Char) : Prop :=
  ∃ header, decodeHeader levels raw expectedFileId = .ok header ∧
    ForeignChunkFirst header.manifest header.chunks

/-- The journal passes every check before a timestamp that is too large an integer. -/
def ReachesOverflow (levels : Nat) (raw : Bytes) (expectedFileId : List Char) : Prop :=
  ∃ header, decodeHeader levels raw expectedFileId = .ok header ∧
    header.ChunksAccepted ∧ header.OverflowsFirst

variable {levels : Nat} {raw : Bytes} {expectedFileId : List Char}

theorem decodeEncryptedState_of_foreignChunk
    (reaches : ReachesForeignChunk levels raw expectedFileId) :
    ∃ failure, decodeEncryptedState levels raw expectedFileId = .error failure ∧
      IsForeign failure := by
  obtain ⟨header, opened, foreignFirst⟩ := reaches
  obtain ⟨failure, raised, other⟩ := decodeStoredChunks_of_foreignFirst foreignFirst
  refine ⟨failure, ?_, other⟩
  unfold decodeEncryptedState
  rw [bind_of_ok opened, raised]
  rfl

theorem decodeEncryptedState_of_overflow (reaches : ReachesOverflow levels raw expectedFileId) :
    decodeEncryptedState levels raw expectedFileId = .error .overflowError := by
  obtain ⟨header, opened, ⟨⟨chunks, accepted⟩, complete⟩, overflows⟩ := reaches
  have length :=
    (decodeStoredChunks_ensures header.manifest header.chunks chunks accepted).length_eq
  rw [length] at complete
  unfold decodeEncryptedState
  rw [bind_of_ok opened, bind_of_ok accepted, require, if_pos complete,
    bind_of_ok rfl, decodeTimestamps_of_overflowsFirst overflows]
  rfl

theorem decodeEncryptedState_failsOnly (noForeign : ¬ ReachesForeignChunk levels raw expectedFileId)
    (noOverflow : ¬ ReachesOverflow levels raw expectedFileId) :
    FailsOnly (decodeEncryptedState levels raw expectedFileId) IsCorrupt := by
  unfold decodeEncryptedState
  cases opened : decodeHeader levels raw expectedFileId with
  | error failure =>
    exact .error (decodeHeader_failsOnly levels raw expectedFileId failure opened)
  | ok header =>
    have native : ¬ ForeignChunkFirst header.manifest header.chunks := fun foreignFirst =>
      noForeign ⟨header, opened, foreignFirst⟩
    rw [bind_of_ok rfl]
    cases accepted : decodeStoredChunks header.manifest header.chunks with
    | error failure => exact .error (decodeStoredChunks_failsOnly native failure accepted)
    | ok chunks =>
      have length :=
        (decodeStoredChunks_ensures header.manifest header.chunks chunks accepted).length_eq
      rw [bind_of_ok rfl]
      by_cases complete : header.status = .partial_ ∨ chunks.length = header.manifest.chunkCount
      · have fits : ¬ header.OverflowsFirst := fun overflows =>
          noOverflow ⟨header, opened, ⟨⟨chunks, accepted⟩, length ▸ complete⟩, overflows⟩
        rw [require, if_pos complete, bind_of_ok rfl]
        exact .bind (decodeTimestamps_failsOnly fits) fun times => .ok _
      · rw [require, if_neg complete]
        exact .error (isCorrupt_corrupt _)

theorem answers_iff (levels : Nat) (raw : Bytes) (expectedFileId : List Char) :
    Answers expectedFileId (decodeEncryptedState levels raw expectedFileId) ↔
      ¬ ReachesForeignChunk levels raw expectedFileId ∧
        ¬ ReachesOverflow levels raw expectedFileId := by
  constructor
  · intro answers
    constructor
    · intro reaches
      obtain ⟨failure, raised, other⟩ := decodeEncryptedState_of_foreignChunk reaches
      rw [raised] at answers
      exact other.not_isCorrupt answers
    · intro reaches
      rw [decodeEncryptedState_of_overflow reaches] at answers
      exact not_isCorrupt_overflowError answers
  · rintro ⟨noForeign, noOverflow⟩
    cases decoded : decodeEncryptedState levels raw expectedFileId with
    | ok record => exact decodeEncryptedState_ensures levels raw expectedFileId record decoded
    | error failure => exact decodeEncryptedState_failsOnly noForeign noOverflow failure decoded

theorem decodeEncryptedState_eq_overflowError_iff :
    decodeEncryptedState levels raw expectedFileId = .error .overflowError ↔
      ReachesOverflow levels raw expectedFileId := by
  refine ⟨?_, decodeEncryptedState_of_overflow⟩
  intro raised
  by_contra noOverflow
  by_cases foreignChunk : ReachesForeignChunk levels raw expectedFileId
  · obtain ⟨failure, other, isForeign⟩ := decodeEncryptedState_of_foreignChunk foreignChunk
    rw [raised] at other
    injection other with same
    exact not_isForeign_overflowError (same ▸ isForeign)
  · exact not_isCorrupt_overflowError
      (decodeEncryptedState_failsOnly foreignChunk noOverflow _ raised)

end XFerry.Encrypted
