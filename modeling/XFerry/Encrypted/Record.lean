/-
The journal record of an encrypted transfer.

A journal is kept here as the record its JSON text stands for.  The text itself
is rendered because the service refuses a journal above a size limit, and the
checks the decoder makes on a parsed journal are kept with their messages.
-/

import XFerry.Encoding.Base64Url
import XFerry.Encrypted.Manifest

namespace XFerry.Encrypted

open List

inductive Status where
  | partial_
  | committing
  | complete
deriving DecidableEq, Repr

structure StoredChunk where
  index : Nat
  length : Nat
  resumeMac : Bytes
  ciphertextSha256 : Bytes
deriving DecidableEq

structure Record (Time : Type) where
  manifest : Manifest
  status : Status
  receivedChunks : List StoredChunk
  createdAt : Time
  updatedAt : Time
deriving DecidableEq

variable {Time : Type}

def Record.fileId (record : Record Time) : FileId := record.manifest.fileId

def natText (value : Nat) : List Char := Nat.toDigits 10 value

def jsonString (text : List Char) : List Char := '"' :: text ++ ['"']

def jsonMember (name : List Char) (value : List Char) : List Char :=
  jsonString name ++ ':' :: value

def commaSeparated : List (List Char) → List Char
  | [] => []
  | [member] => member
  | member :: rest => member ++ ',' :: commaSeparated rest

def jsonObject (members : List (List Char)) : List Char :=
  '{' :: commaSeparated members ++ ['}']

def Status.text : Status → List Char
  | .partial_ => "partial".toList
  | .committing => "committing".toList
  | .complete => "complete".toList

def chunkToJson (chunk : StoredChunk) : List Char :=
  jsonMember (natText chunk.index) (jsonObject
    [jsonMember "ciphertext_sha256".toList (jsonString (Base64Url.encode chunk.ciphertextSha256)),
      jsonMember "length".toList (natText chunk.length),
      jsonMember "resume_mac".toList (jsonString (Base64Url.encode chunk.resumeMac))])

def manifestToJson (manifest : Manifest) : List Char :=
  jsonObject
    [jsonMember "chunk_count".toList (natText manifest.chunkCount),
      jsonMember "chunk_size".toList (natText manifest.chunkSize),
      jsonMember "encrypted_metadata".toList
        (jsonString (Base64Url.encode manifest.encryptedMetadata)),
      jsonMember "file_id".toList (jsonString manifest.fileId.text),
      jsonMember "nonce_prefix".toList (jsonString (Base64Url.encode manifest.noncePrefix)),
      jsonMember "plaintext_size".toList (natText manifest.plaintextSize),
      jsonMember "salt".toList (jsonString (Base64Url.encode manifest.salt)),
      jsonMember "version".toList (natText manifest.version)]

/-- `_record_to_json`, with the members in the order `sort_keys` gives them. -/
def recordToJson (timeText : Time → List Char) (record : Record Time) : List Char :=
  let chunks := record.receivedChunks.insertionSort fun left right =>
    natText left.index ≤ natText right.index
  jsonObject
    [jsonMember "created_at".toList (timeText record.createdAt),
      jsonMember "manifest".toList (manifestToJson record.manifest),
      jsonMember "received_chunks".toList (jsonObject (chunks.map chunkToJson)),
      jsonMember "schema_version".toList (natText 1),
      jsonMember "status".toList (jsonString record.status.text),
      jsonMember "updated_at".toList (timeText record.updatedAt)]

def maxStateBytes : Nat := 1024 * 1024

def sortChunks (chunks : List StoredChunk) : List StoredChunk :=
  chunks.insertionSort fun left right => left.index ≤ right.index

variable {chunks : List StoredChunk}

theorem mem_sortChunks {chunk : StoredChunk} :
    chunk ∈ sortChunks chunks ↔ chunk ∈ chunks := mem_insertionSort _

theorem sortChunks_ordered (distinct : (chunks.map StoredChunk.index).Nodup) :
    (sortChunks chunks).Pairwise fun left right => left.index < right.index := by
  have sorted : (sortChunks chunks).Pairwise fun left right => left.index ≤ right.index :=
    pairwise_insertionSort _ chunks
  have different : (sortChunks chunks).Pairwise fun left right => left.index ≠ right.index := by
    have permuted := (perm_insertionSort (fun left right : StoredChunk =>
      left.index ≤ right.index) chunks).map StoredChunk.index
    exact pairwise_map.mp (permuted.nodup_iff.mpr distinct)
  exact (sorted.and different).imp fun both => Nat.lt_of_le_of_ne both.1 both.2

def decodeChunk (manifest : Manifest) (chunk : StoredChunk) : Except StorageError Unit := do
  let expectedLength ← manifest.encryptedChunkLength chunk.index
  if chunk.length ≠ expectedLength then
    throw (.corrupt "invalid chunk length")
  if chunk.resumeMac.length ≠ 32 ∨ chunk.ciphertextSha256.length ≠ 32 then
    throw (.corrupt "invalid chunk digest length")

def decodeChunks (manifest : Manifest) : List StoredChunk → Except StorageError Unit
  | [] => return ()
  | chunk :: rest => do
      decodeChunk manifest chunk
      decodeChunks manifest rest

/-- `decode_encrypted_state` from the parsed members on. -/
def decodeState [LinearOrder Time] (stored : Record Time) (expectedFileId : FileId) :
    Except StorageError (Record Time) := do
  if stored.manifest.fileId ≠ expectedFileId then
    throw (.corrupt "state file ID does not match manifest")
  decodeChunks stored.manifest stored.receivedChunks
  if stored.status ≠ .partial_ ∧ stored.receivedChunks.length ≠ stored.manifest.chunkCount then
    throw (.corrupt "final state is missing chunks")
  if stored.updatedAt < stored.createdAt then
    throw (.corrupt "updated_at predates created_at")
  return { stored with receivedChunks := sortChunks stored.receivedChunks }

structure StoredChunk.Fits (manifest : Manifest) (chunk : StoredChunk) : Prop where
  inside : chunk.index < manifest.chunkCount
  length_eq : chunk.length = manifest.chunkLength chunk.index
  resumeMac_length : chunk.resumeMac.length = 32
  sha256_length : chunk.ciphertextSha256.length = 32

structure Record.WellFormed [LinearOrder Time] (fileId : FileId) (record : Record Time) : Prop where
  fileId_eq : record.manifest.fileId = fileId
  chunks : ∀ chunk ∈ record.receivedChunks, chunk.Fits record.manifest
  ordered : record.receivedChunks.Pairwise fun left right => left.index < right.index
  final : record.status ≠ .partial_ → record.receivedChunks.length = record.manifest.chunkCount
  timestamps : record.createdAt ≤ record.updatedAt

/-- A record whose chunks may stand in any order. -/
structure Record.Valid [LinearOrder Time] (record : Record Time) : Prop where
  chunks : ∀ chunk ∈ record.receivedChunks, chunk.Fits record.manifest
  distinct : (record.receivedChunks.map StoredChunk.index).Nodup
  final : record.status ≠ .partial_ → record.receivedChunks.length = record.manifest.chunkCount
  timestamps : record.createdAt ≤ record.updatedAt

variable {record : Record Time} {fileId : FileId}

theorem Record.WellFormed.valid [LinearOrder Time]
    (wellFormed : record.WellFormed fileId) : record.Valid :=
  { __ := wellFormed
    distinct := (pairwise_map.mpr wellFormed.ordered).imp Nat.ne_of_lt }

variable {manifest : Manifest}

theorem decodeChunks_of_fits (fits : ∀ chunk ∈ chunks, chunk.Fits manifest) :
    decodeChunks manifest chunks = .ok () := by
  induction chunks with
  | nil => rfl
  | cons chunk rest ih =>
    have here := fits chunk (mem_cons_self ..)
    have accepted : decodeChunk manifest chunk = .ok () := by
      simp only [decodeChunk, Manifest.encryptedChunkLength_of_lt here.inside]
      simp [bind, Except.bind, here.length_eq, here.resumeMac_length, here.sha256_length,
        pure, Except.pure]
    rw [decodeChunks, accepted]
    exact ih fun other member => fits other (mem_cons_of_mem _ member)

theorem sortChunks_of_ordered
    (ordered : chunks.Pairwise fun left right => left.index < right.index) :
    sortChunks chunks = chunks := by
  apply List.Pairwise.insertionSort_eq
  exact ordered.imp Nat.le_of_lt

theorem decodeState_of_wellFormed [LinearOrder Time]
    (wellFormed : record.WellFormed fileId) : decodeState record fileId = .ok record := by
  have complete : ¬ (record.status ≠ .partial_ ∧
      record.receivedChunks.length ≠ record.manifest.chunkCount) :=
    fun both => both.2 (wellFormed.final both.1)
  have inTime : ¬ record.updatedAt < record.createdAt := not_lt.mpr wellFormed.timestamps
  simp only [decodeState, wellFormed.fileId_eq, decodeChunks_of_fits wellFormed.chunks,
    if_neg complete, if_neg inTime, sortChunks_of_ordered wellFormed.ordered, ne_eq,
    not_true_eq_false, if_false]
  rfl

theorem length_commaSeparated_le (members : List (List Char)) :
    (commaSeparated members).length ≤ (members.map fun member => member.length + 1).sum := by
  fun_induction commaSeparated members with
  | case1 => simp
  | case2 member => simp
  | case3 member rest _nonempty ih =>
    simp only [length_append, length_cons, map_cons, sum_cons]
    omega

theorem length_jsonObject_le (members : List (List Char)) :
    (jsonObject members).length ≤ (members.map fun member => member.length + 1).sum + 2 := by
  have inner := length_commaSeparated_le members
  simp only [jsonObject, cons_append, length_cons, length_append, length_nil]
  omega

theorem length_jsonString (text : List Char) : (jsonString text).length = text.length + 2 := by
  simp [jsonString]

theorem length_jsonMember (name value : List Char) :
    (jsonMember name value).length = name.length + value.length + 3 := by
  simp only [jsonMember, length_append, length_jsonString, length_cons]
  omega

theorem length_natText_le {value digits : Nat} (positive : 0 < digits)
    (small : value < 10 ^ digits) : (natText value).length ≤ digits :=
  (Nat.length_toDigits_le_iff (by decide) positive).mpr small

theorem length_chunkToJson_le {chunk : StoredChunk}
    (fits : chunk.Fits manifest) : (chunkToJson chunk).length ≤ 151 := by
  have count := manifest.chunkCount_le
  have inside := fits.inside
  have index : (natText chunk.index).length ≤ 4 := by
    apply length_natText_le (by decide)
    simp only [eufMaxChunkCount] at count
    omega
  have length : (natText chunk.length).length ≤ 7 := by
    apply length_natText_le (by decide)
    have bound := manifest.chunkLength_le chunk.index
    rw [manifest.chunkSize_eq, ← fits.length_eq] at bound
    simp only [eufChunkSize, eufGcmTagSize] at bound
    omega
  have body := length_jsonObject_le
    [jsonMember "ciphertext_sha256".toList (jsonString (Base64Url.encode chunk.ciphertextSha256)),
      jsonMember "length".toList (natText chunk.length),
      jsonMember "resume_mac".toList (jsonString (Base64Url.encode chunk.resumeMac))]
  simp only [map_cons, map_nil, sum_cons, sum_nil, length_jsonMember,
    length_jsonString, Base64Url.length_encode, fits.resumeMac_length, fits.sha256_length] at body
  have names : ("ciphertext_sha256".toList.length, "length".toList.length,
      "resume_mac".toList.length) = (17, 6, 10) := by decide
  simp only [Prod.mk.injEq] at names
  simp only [chunkToJson, length_jsonMember]
  omega

theorem length_manifestToJson_le (manifest : Manifest) :
    (manifestToJson manifest).length ≤ 5800 := by
  have countBound := manifest.chunkCount_le
  have sizeBound := manifest.plaintextSize_le
  have metadataBound := manifest.metadata_length_le
  simp only [eufMaxFileSize, eufMaxChunkCount, eufChunkSize, eufMaxMetadataSize,
    eufGcmTagSize] at countBound sizeBound metadataBound
  have count : (natText manifest.chunkCount).length ≤ 4 := length_natText_le (by decide) (by omega)
  have size : (natText manifest.plaintextSize).length ≤ 11 :=
    length_natText_le (by decide) (by omega)
  have chunk : (natText manifest.chunkSize).length ≤ 7 := by
    rw [manifest.chunkSize_eq]
    exact length_natText_le (by decide) (by decide)
  have version : (natText manifest.version).length ≤ 1 := by
    rw [manifest.version_eq]
    exact length_natText_le (by decide) (by decide)
  have sizeNames : ("chunk_count".toList.length, "chunk_size".toList.length,
      "plaintext_size".toList.length, "version".toList.length) = (11, 10, 14, 7) := by decide
  have textNames : ("encrypted_metadata".toList.length, "file_id".toList.length,
      "nonce_prefix".toList.length, "salt".toList.length) = (18, 7, 12, 4) := by decide
  simp only [Prod.mk.injEq] at sizeNames textNames
  refine (length_jsonObject_le _).trans ?_
  simp only [map_cons, map_nil, sum_cons, sum_nil, length_jsonMember,
    length_jsonString, Base64Url.length_encode, manifest.fileId.length_text,
    manifest.salt_length, manifest.noncePrefix_length]
  omega

theorem length_le_of_distinct {bound : Nat} (distinct : (chunks.map StoredChunk.index).Nodup)
    (inside : ∀ chunk ∈ chunks, chunk.index < bound) : chunks.length ≤ bound := by
  have subset : chunks.map StoredChunk.index ⊆ range bound := by
    intro index member
    obtain ⟨chunk, present, rfl⟩ := mem_map.mp member
    exact mem_range.mpr (inside chunk present)
  have shorter := (distinct.subperm subset).length_le
  rwa [length_map, length_range] at shorter

theorem length_chunksToJson_le (fits : ∀ chunk ∈ chunks, chunk.Fits manifest) :
    (jsonObject (chunks.map chunkToJson)).length ≤ chunks.length * 152 + 2 := by
  have members : ((chunks.map chunkToJson).map fun member => member.length + 1).sum ≤
      chunks.length * 152 := by
    rw [map_map]
    refine (sum_le_card_nsmul _ 152 ?_).trans (by simp)
    intro size member
    obtain ⟨chunk, present, rfl⟩ := mem_map.mp member
    have bound := length_chunkToJson_le (fits chunk present)
    simp only [Function.comp]
    omega
  have body := length_jsonObject_le (chunks.map chunkToJson)
  omega

variable {timeText : Time → List Char}

theorem Record.Valid.length_recordToJson_le [LinearOrder Time] (valid : record.Valid)
    (createdLength : (timeText record.createdAt).length ≤ 24)
    (updatedLength : (timeText record.updatedAt).length ≤ 24) :
    (recordToJson timeText record).length ≤ maxStateBytes := by
  have manifest := length_manifestToJson_le record.manifest
  have status : record.status.text.length ≤ 10 := by cases record.status <;> decide
  have schema : (natText 1).length ≤ 1 := length_natText_le (by decide) (by decide)
  have count : record.receivedChunks.length ≤ 4096 := by
    have bound := record.manifest.chunkCount_le
    have within := length_le_of_distinct valid.distinct
      fun chunk member => (valid.chunks chunk member).inside
    simp only [eufMaxChunkCount] at bound
    omega
  have sortedFits : ∀ chunk ∈ record.receivedChunks.insertionSort fun left right =>
      natText left.index ≤ natText right.index, chunk.Fits record.manifest :=
    fun chunk member => valid.chunks chunk ((mem_insertionSort _).mp member)
  have chunks := length_chunksToJson_le sortedFits
  rw [length_insertionSort] at chunks
  have names : ("created_at".toList.length, "manifest".toList.length,
      "received_chunks".toList.length, "schema_version".toList.length,
      "status".toList.length, "updated_at".toList.length) = (10, 8, 15, 14, 6, 10) := by decide
  simp only [Prod.mk.injEq] at names
  refine (length_jsonObject_le _).trans ?_
  simp only [map_cons, map_nil, sum_cons, sum_nil, length_jsonMember,
    length_jsonString, maxStateBytes]
  omega

theorem length_recordToJson_le [LinearOrder Time]
    (timeLength : ∀ time, (timeText time).length ≤ 24) (wellFormed : record.WellFormed fileId) :
    (recordToJson timeText record).length ≤ maxStateBytes :=
  wellFormed.valid.length_recordToJson_le (timeLength _) (timeLength _)

end XFerry.Encrypted
