/-
The downloads of stored files: one chunk as it is stored, or all chunks decrypted.
-/

import XFerry.Encrypted.StreamedDecryption
import XFerry.Encrypted.TransferApiEscapes

namespace XFerry.TransferApi

open CrashProgram Program EventMachine Http Json Python
open Encrypted hiding Bytes

variable {Time : Type} [LinearOrder Time] [Sub Time] {service : Service Time}
  {world : World Time} {record : Record Time} {slot : Slot Time} {data : Bytes}

theorem statusCode_jsonResponse {payload : Payload} {status : Nat} {noStore : Bool}
    {response : Response} (built : jsonResponse payload status noStore = .ok response) :
    response.statusCode = status := by
  unfold jsonResponse at built
  cases encoded : encode (dumps payload) with
  | none =>
    rw [encoded] at built
    cases built
  | some body =>
    rw [encoded] at built
    cases noStore with
    | false | true =>
      cases built
      rfl

def AnswersNotFound (program : Handler Time Response) (world : World Time) : Prop :=
  ∃ response, program.final world = (.ok response, world) ∧ response.statusCode = 404

omit [LinearOrder Time] [Sub Time] in
theorem encryptedNotFound_answers (world : World Time) :
    AnswersNotFound encryptedNotFound world := by
  have text : IsErrorText "resource_not_found" (str "Encrypted resource not found".toList) :=
    ⟨by decide, by decide⟩
  have encodes : (errorPayload "resource_not_found" (str "Encrypted resource not found".toList)
      (some (str "id".toList)) []).HasEncoding := by
    rw [errorPayload_hasEncoding]
    refine ⟨hasEncoding_str _, ?_, List.forall_mem_nil _⟩
    rintro name ⟨⟩
    exact hasEncoding_str _
  obtain ⟨response, built⟩ := jsonResponse_succeeds.mpr encodes
  refine ⟨response, ?_, statusCode_jsonResponse built⟩
  rw [encryptedNotFound, encryptedError, errorResponse_eq text, built]
  rfl

def chunkResponse (blocks : Streamed) (length : Nat) : Response :=
  noStore ((HTTPResponse.ofStatus 200).setStream (.blocks blocks) octetStream length)

/-- The answer to the download of a chunk: its stored range if there is such a chunk. -/
structure ChunkAnswered (program : Handler Time Response) (world : World Time)
    (manifest : Manifest) (data : Bytes) (index : Nat) : Prop where
  streams : index < manifest.chunkCount → ∃ blocks,
    program.final world = (.ok (chunkResponse blocks (manifest.chunkLength index)), world) ∧
      blocks.failure = none ∧ blocks.yielded.flatten = manifest.storedRange data index
  missing : manifest.chunkCount ≤ index → AnswersNotFound program world

theorem lt_of_length_toDigits_lt {small large : Nat}
    (more : (Nat.toDigits 10 small).length < (Nat.toDigits 10 large).length) : small < large := by
  have positive : 0 < (Nat.toDigits 10 small).length := Nat.length_toDigits_pos
  have below := (Nat.length_toDigits_le_iff (by decide) positive).mp
    (Nat.le_refl (Nat.toDigits 10 small).length)
  have above := mt (Nat.length_toDigits_le_iff (by decide) positive).mpr (Nat.not_le.mpr more)
  omega

theorem decimalInt_toDigits {index : Nat} (few : (Nat.toDigits 10 index).length ≤ maxStrDigits) :
    decimalInt (Nat.toDigits 10 index) = .ok index := by
  rw [decimalInt, if_neg (Nat.not_lt.mpr few), digitsValue, Nat.ofDigitChars_ten_toDigits]

theorem length_toDigits_chunkCount (manifest : Manifest) :
    (Nat.toDigits 10 manifest.chunkCount).length ≤ maxStrDigits := by
  refine Nat.le_trans ((Nat.length_toDigits_le_iff (by decide) (show 0 < 4 by decide)).mpr ?_)
    (show 4 ≤ maxStrDigits by decide)
  have bound := manifest.chunkCount_le
  rw [eufMaxChunkCount] at bound
  omega

omit [LinearOrder Time] [Sub Time] in
theorem streamChunk_answered (held : slot.complete = some data)
    (full : data.length = record.manifest.ciphertextSize) (index : Nat) (world : World Time) :
    ChunkAnswered (streamChunk record slot (Nat.toDigits 10 index)) world record.manifest data
      index := by
  unfold streamChunk
  by_cases long : (Nat.toDigits 10 record.manifest.chunkCount).length <
      (Nat.toDigits 10 index).length
  · rw [if_pos long]
    have beyond := lt_of_length_toDigits_lt long
    exact ⟨fun inside => absurd inside (by omega), fun _ => encryptedNotFound_answers world⟩
  have converted : (building
    (decimalInt (Nat.toDigits 10 index)) : Handler Time Nat).final world =
      (.ok index, world) := by
    rw [decimalInt_toDigits (Nat.le_trans (Nat.not_lt.mp long)
      (length_toDigits_chunkCount record.manifest))]
    rfl
  rw [if_neg long]
  by_cases beyond : record.manifest.chunkCount ≤ index
  · refine ⟨fun inside => absurd inside (Nat.not_lt.mpr beyond), fun _ => ?_⟩
    obtain ⟨response, answered, status⟩ := encryptedNotFound_answers world
    refine ⟨response, ?_, status⟩
    rw [final_bind_of_ok converted, if_pos beyond, answered]
  · refine ⟨fun inside => ?_, fun absent => absurd absent beyond⟩
    have opened : openCompleteCiphertext record slot = some data := by
      rw [openCompleteCiphertext, held]
      exact if_neg (not_not.mpr full)
    have length := record.manifest.chunkLength_eq inside
    have ends := Manifest.chunkOffset_add_length_le inside
    rw [← full] at ends
    obtain ⟨failure, yielded⟩ := iterCiphertextRange_eq ends
    refine ⟨_, ?_, failure, yielded⟩
    rw [final_bind_of_ok converted, if_neg beyond, opened, ← length]
    rfl

theorem downloadEncryptedChunk_answered (settled : Settled service world) {fileId : FileId}
    (journal : (world.slot fileId).journal = some record) (complete : record.status = .complete)
    (held : (world.slot fileId).complete = some data)
    (full : data.length = record.manifest.ciphertextSize) (circumstances : Circumstances Time)
    (index : Nat) :
    ChunkAnswered (downloadEncryptedChunk service circumstances fileId (Nat.toDigits 10 index))
      world record.manifest data index := by
  have found : (completeRecord service circumstances fileId).final world =
      (.ok (some record), world) :=
    (completeRecord_returned settled).mpr ⟨journal, complete, rfl⟩
  have same : (downloadEncryptedChunk service circumstances fileId
      (Nat.toDigits 10 index)).final world =
        (streamChunk record (world.slot fileId) (Nat.toDigits 10 index)).final world := by
    rw [downloadEncryptedChunk, final_bind_of_ok found]
    rfl
  obtain ⟨streams, missing⟩ := streamChunk_answered held full index world
  constructor
  · rw [same]
    exact streams
  · rw [AnswersNotFound, same]
    exact missing

/-- The chunks of every manifest divide the stored data between them; in every state of the
storage that calls, crashes and start-ups lead to, the download of a chunk streams its
range; and a streaming decryption lets out what the file holds ciphertexts of, from its
start. -/
theorem chunk_downloads {aead : Aead} (correct : aead.Correct) (genuine : aead.Genuine)
    {events : List (Event Time)} {system : System Time}
    (reached : run (System.step service) System.initial events = some system)
    (running : system.running = true) :
    (∀ manifest : Manifest, manifest.Tiled) ∧
    (∀ fileId record data, (system.world.slot fileId).journal = some record →
      record.status = .complete → (system.world.slot fileId).complete = some data →
      data.length = record.manifest.ciphertextSize →
      ∀ (circumstances : Circumstances Time) (index : Nat),
        ChunkAnswered
          (downloadEncryptedChunk service circumstances fileId (Nat.toDigits 10 index))
          system.world record.manifest data index) ∧
    ∀ (manifest : Manifest) (contentKey data : Bytes),
      DecryptsPrefix aead manifest contentKey data
        (iterDecryptedChunks aead data manifest contentKey) := by
  have settled : Settled service system.world := (run_valid reached).settled running
  refine ⟨fun manifest => manifest.tiled, ?_, ?_⟩
  · intro fileId record data journal complete held full circumstances index
    exact downloadEncryptedChunk_answered settled journal complete held full circumstances index
  · intro manifest contentKey data
    exact iterDecryptedChunks_decryptsPrefix correct genuine

def genuineAead : Aead :=
  { encrypt := vectorAead.encrypt
    decrypt := fun key nonce ciphertext aad =>
      let data := ciphertext.take (ciphertext.length - eufGcmTagSize)
      if (key, nonce, ciphertext, aad) = (vectorKey, vectorNonce, vectorCiphertext, vectorAad) then
        some vectorPlaintext
      else if vectorAead.encrypt key nonce data aad = ciphertext then some data
      else none }

theorem vectorAead_encrypt :
    vectorAead.encrypt vectorKey vectorNonce vectorPlaintext vectorAad = vectorCiphertext := by
  decide +kernel

theorem genuineAead_correct : genuineAead.Correct where
  length_encrypt := vectorAead_correct.length_encrypt
  decrypt_encrypt key nonce data aad := by
    dsimp only [genuineAead]
    by_cases same : (key, nonce, vectorAead.encrypt key nonce data aad, aad) =
        (vectorKey, vectorNonce, vectorCiphertext, vectorAad)
    · rw [if_pos same]
      have opened := vectorAead_correct.decrypt_encrypt key nonce data aad
      obtain ⟨rfl, rfl, made, rfl⟩ : key = vectorKey ∧ nonce = vectorNonce ∧
          vectorAead.encrypt key nonce data aad = vectorCiphertext ∧ aad = vectorAad := by
        simpa using same
      rw [made, ← vectorAead_encrypt, vectorAead_correct.decrypt_encrypt] at opened
      exact opened
    · have plain : vectorAead.encrypt key nonce data aad = data ++ emptyTag := by
        refine if_neg fun vector => same ?_
        cases vector
        rw [vectorAead_encrypt]
      have taken : (vectorAead.encrypt key nonce data aad).take
          ((vectorAead.encrypt key nonce data aad).length - eufGcmTagSize) = data := by
        rw [plain, List.length_append]
        exact List.take_left' (Nat.add_sub_cancel _ _).symm
      rw [if_neg same, taken, if_pos rfl]

theorem genuineAead_genuine : genuineAead.Genuine := by
  intro key nonce ciphertext aad data opened
  dsimp only [genuineAead] at opened ⊢
  split at opened
  · case isTrue same =>
      cases same
      cases opened
      exact vectorAead_encrypt
  · split at opened
    · case isTrue sealed =>
        cases opened
        exact sealed
    · cases opened

def sampleCompleted : List (Event Int) :=
  sampleCreated ++ [.call sampleWrite sampleEnvironment,
    .call (.complete sampleManifest.fileId) sampleEnvironment]

theorem sampleChunk_downloaded :
    ChunkAnswered (downloadEncryptedChunk sampleService sampleCircumstances
        sampleManifest.fileId ['0']) (afterSample sampleCompleted).world sampleManifest
        sampleCiphertext 0 ∧
      DecryptsPrefix genuineAead (vectorManifest 120) vectorKey vectorCiphertext
        { yielded := [vectorPlaintext], failure := none } := by
  obtain ⟨_, download, decryption⟩ := chunk_downloads genuineAead_correct genuineAead_genuine
    (run_eq_afterSample (show (run (System.step sampleService) System.initial
      sampleCompleted).isSome = true by decide +kernel)) (by decide +kernel)
  have stored : ((afterSample sampleCompleted).world.slot sampleManifest.fileId).journal.any
      (fun record => decide (record.status = .complete) &&
        decide (record.manifest = sampleManifest)) = true := by decide +kernel
  obtain ⟨record, journal, both⟩ := (Option.any_eq_true _ _).mp stored
  rw [Bool.and_eq_true, decide_eq_true_eq, decide_eq_true_eq] at both
  obtain ⟨complete, manifest⟩ := both
  constructor
  · have answered := download sampleManifest.fileId record sampleCiphertext journal complete
      (by decide +kernel) (by rw [manifest]; decide) sampleCircumstances 0
    rwa [manifest] at answered
  · have decrypts := decryption (vectorManifest 120) vectorKey vectorCiphertext
    have streamed : iterDecryptedChunks genuineAead vectorCiphertext
      (vectorManifest 120) vectorKey =
        { yielded := [vectorPlaintext], failure := none } := by decide +kernel
    rwa [streamed] at decrypts

end XFerry.TransferApi
