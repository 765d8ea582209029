/-
What the streaming decryption of a stored file lets out.

Every piece that is yielded comes with its ciphertext at its place in the file, whatever
the file holds; only the last step looks for bytes that are left over.
-/

import XFerry.Encrypted.Downloads
import XFerry.Encrypted.TransferFormat

namespace XFerry.Encrypted

open List

namespace Manifest

def boundary (manifest : Manifest) (index : Nat) : Nat :=
  min (index * manifest.chunkSize) manifest.plaintextSize + index * eufGcmTagSize

def storedSpan (manifest : Manifest) (index : Nat) : Set Nat :=
  Set.Ico (manifest.chunkOffset index) (manifest.chunkOffset index + manifest.chunkLength index)

def storedRange (manifest : Manifest) (data : Bytes) (index : Nat) : Bytes :=
  (data.drop (manifest.chunkOffset index)).take (manifest.chunkLength index)

def plaintextChunk (manifest : Manifest) (plaintext : Bytes) (index : Nat) : Bytes :=
  (plaintext.drop (index * manifest.chunkSize)).take manifest.chunkSize

def plaintextChunks (manifest : Manifest) (plaintext : Bytes) : List Bytes :=
  (List.range manifest.chunkCount).map (manifest.plaintextChunk plaintext)

variable (manifest : Manifest)

theorem boundary_zero : manifest.boundary 0 = 0 := by
  simp [boundary]

theorem boundary_succ (index : Nat) :
    manifest.boundary (index + 1) = manifest.boundary index + manifest.chunkLength index := by
  simp only [boundary, chunkLength, Nat.succ_mul]
  omega

theorem monotone_boundary : Monotone manifest.boundary := by
  refine monotone_nat_of_le_succ fun index => ?_
  rw [boundary_succ]
  omega

theorem plaintextSize_le_count_mul :
    manifest.plaintextSize ≤ manifest.chunkCount * manifest.chunkSize := by
  have positive := manifest.chunkSize_pos
  have last := Nat.div_add_mod (manifest.plaintextSize + manifest.chunkSize - 1) manifest.chunkSize
  have rest := Nat.mod_lt (manifest.plaintextSize + manifest.chunkSize - 1) positive
  rw [← manifest.chunkCount_eq, Nat.mul_comm] at last
  omega

theorem boundary_chunkCount : manifest.boundary manifest.chunkCount = manifest.ciphertextSize := by
  rw [boundary, ciphertextSize, Nat.min_eq_right manifest.plaintextSize_le_count_mul]

variable {manifest} {index : Nat}

section

variable (inside : index < manifest.chunkCount)
include inside

theorem boundary_eq_chunkOffset : manifest.boundary index = manifest.chunkOffset index := by
  have start := start_lt_plaintextSize inside
  rw [boundary, chunkOffset, Nat.min_eq_left (Nat.le_of_lt start), Nat.mul_add]

theorem storedSpan_eq :
    manifest.storedSpan index =
      Set.Ico (manifest.boundary index) (manifest.boundary (index + 1)) := by
  rw [storedSpan, boundary_succ, boundary_eq_chunkOffset inside]

theorem storedRange_eq {data : Bytes} :
    manifest.storedRange data index =
      (data.drop (manifest.boundary index)).take (manifest.chunkLength index) := by
  rw [storedRange, boundary_eq_chunkOffset inside]

end

variable (manifest)

theorem storedSpan_disjoint :
    (Set.Iio manifest.chunkCount).PairwiseDisjoint manifest.storedSpan := by
  intro left leftInside right rightInside different
  have apart := manifest.monotone_boundary.pairwise_disjoint_on_Ico_succ different
  rw [Function.onFun, storedSpan_eq leftInside, storedSpan_eq rightInside]
  exact apart

theorem iUnion_storedSpan :
    ⋃ index ∈ Set.Iio manifest.chunkCount, manifest.storedSpan index =
      Set.Iio manifest.ciphertextSize := by
  apply Set.Subset.antisymm
  · intro place within
    obtain ⟨index, inside, span⟩ := Set.mem_iUnion₂.mp within
    rw [storedSpan, Set.mem_Ico] at span
    have ends := chunkOffset_add_length_le inside
    rw [Set.mem_Iio]
    omega
  · intro place within
    have covered := Ico_subset_biUnion_Ico manifest.chunkCount manifest.boundary
    rw [boundary_zero, boundary_chunkCount] at covered
    obtain ⟨index, inside, span⟩ := Set.mem_iUnion₂.mp (covered ⟨Nat.zero_le place, within⟩)
    have before := Finset.mem_range.mp inside
    rw [← storedSpan_eq before] at span
    exact Set.mem_iUnion₂.mpr ⟨index, before, span⟩

theorem sum_plaintextLength (inside : index ≤ manifest.chunkCount) :
    ∑ before ∈ Finset.range index, manifest.plaintextLength before =
      (min (index * manifest.chunkSize) manifest.plaintextSize : Nat) := by
  induction index with
  | zero => simp
  | succ index ih =>
    have start := start_lt_plaintextSize inside
    rw [Finset.sum_range_succ, ih (Nat.le_of_succ_le inside), plaintextLength, Nat.succ_mul]
    omega

/-- The stored ranges of the chunks, as their offsets and lengths are computed, divide the
stored data between them. -/
structure Tiled : Prop where
  lengths : ∀ index < manifest.chunkCount,
    manifest.encryptedChunkLength index = .ok (manifest.chunkLength index) ∧
      (manifest.chunkLength index : Int) = manifest.plaintextLength index + eufGcmTagSize
  ordered : ∀ left right, left < right →
    manifest.chunkOffset left + manifest.chunkLength left ≤ manifest.chunkOffset right
  contiguous : ∀ index, index + 1 < manifest.chunkCount →
    manifest.chunkOffset index + manifest.chunkLength index = manifest.chunkOffset (index + 1)
  disjoint : (Set.Iio manifest.chunkCount).PairwiseDisjoint manifest.storedSpan
  covers : ⋃ index ∈ Set.Iio manifest.chunkCount, manifest.storedSpan index =
    Set.Iio manifest.ciphertextSize
  plaintext : ∑ index ∈ Finset.range manifest.chunkCount, manifest.plaintextLength index =
    manifest.plaintextSize

theorem chunkLength_eq (inside : index < manifest.chunkCount) :
    (manifest.chunkLength index : Int) = manifest.plaintextLength index + eufGcmTagSize := by
  have start := start_lt_plaintextSize inside
  rw [chunkLength, plaintextLength]
  omega

theorem tiled : manifest.Tiled where
  lengths index inside := ⟨encryptedChunkLength_of_lt inside, manifest.chunkLength_eq inside⟩
  ordered _ _ := manifest.chunkOffset_add_length_le_of_lt
  contiguous index inside := by
    rw [← boundary_eq_chunkOffset (Nat.lt_of_succ_lt inside), ← boundary_eq_chunkOffset inside,
      boundary_succ]
  disjoint := manifest.storedSpan_disjoint
  covers := manifest.iUnion_storedSpan
  plaintext := by
    rw [manifest.sum_plaintextLength (Nat.le_refl _),
      Nat.min_eq_right manifest.plaintextSize_le_count_mul]

end Manifest

/-- What is decrypted is what encryption makes of the result. -/
def Aead.Genuine (aead : Aead) : Prop :=
  ∀ key nonce ciphertext aad data,
    aead.decrypt key nonce ciphertext aad = some data → aead.encrypt key nonce data aad = ciphertext

/-- The ciphertexts of pieces of plaintext, from an index of a manifest on. -/
inductive Encrypts (aead : Aead) (manifest : Manifest) (contentKey : Bytes) :
    Nat → List Bytes → List Bytes → Prop where
  | nil (index : Nat) : Encrypts aead manifest contentKey index [] []
  | cons {index : Nat} {piece ciphertext : Bytes} {pieces ciphertexts : List Bytes}
      (here : encryptChunk aead piece contentKey manifest index = .ok ciphertext)
      (later : Encrypts aead manifest contentKey (index + 1) pieces ciphertexts) :
      Encrypts aead manifest contentKey index (piece :: pieces) (ciphertext :: ciphertexts)

/-- Only the chunks of this plaintext have been encrypted under the key and the manifest, as
far as the ranges of the data show. -/
def OnlyEncrypted (aead : Aead) (manifest : Manifest) (contentKey data plaintext : Bytes) : Prop :=
  ∀ index < manifest.chunkCount, ∀ piece,
    encryptChunk aead piece contentKey manifest index = .ok (manifest.storedRange data index) →
      piece = manifest.plaintextChunk plaintext index

/-- What a decryption of stored data streams. -/
structure DecryptsPrefix (aead : Aead) (manifest : Manifest) (contentKey data : Bytes)
    (streamed : Streamed) : Prop where
  sealedPieces : ∃ ciphertexts, Encrypts aead manifest contentKey 0 streamed.yielded ciphertexts ∧
    ciphertexts.flatten <+: data ∧
    (streamed.failure = none →
      streamed.yielded.length = manifest.chunkCount ∧ ciphertexts.flatten = data)
  chunks : ∀ plaintext, OnlyEncrypted aead manifest contentKey data plaintext →
    streamed.yielded <+: manifest.plaintextChunks plaintext ∧
      streamed.yielded.flatten = plaintext.take (streamed.yielded.length * manifest.chunkSize)
  intact : ∀ pieces ciphertexts, pieces.length = manifest.chunkCount →
    Encrypts aead manifest contentKey 0 pieces ciphertexts → ciphertexts.flatten = data →
      streamed = { yielded := pieces, failure := none }

variable {aead : Aead} {manifest : Manifest} {contentKey data plaintext : Bytes}

variable {ciphertext opened : Bytes}

theorem decryptChunk_checked {index : Int}
    (decrypted : decryptChunk aead ciphertext contentKey manifest index = .ok (some opened)) :
    contentKey.length = 32 ∧
      (ciphertext.length : Int) = manifest.plaintextLength index + eufGcmTagSize := by
  unfold decryptChunk at decrypted
  by_cases length : contentKey.length = 32
  · refine ⟨length, ?_⟩
    by_contra different
    rw [requireAesKey_eq_ok length, Ensures.bind_of_ok rfl] at decrypted
    cases context : manifest.chunkAad index (manifest.plaintextLength index) with
    | error failure =>
      rw [context] at decrypted
      cases decrypted
    | ok aad =>
      rw [context, Ensures.bind_of_ok rfl, if_pos different] at decrypted
      cases decrypted
  · rw [requireAesKey, if_neg length] at decrypted
    cases decrypted

theorem encryptChunk_of_decryptChunk (correct : aead.Correct) (genuine : aead.Genuine) {index : Int}
    (decrypted : decryptChunk aead ciphertext contentKey manifest index = .ok (some opened)) :
    encryptChunk aead opened contentKey manifest index = .ok ciphertext := by
  obtain ⟨keyLength, length⟩ := decryptChunk_checked decrypted
  obtain ⟨aad, nonce, context, counter, opens⟩ := decryptChunk_eq_some decrypted
  have made := genuine _ _ _ _ _ opens
  have openedLength : (opened.length : Int) = manifest.plaintextLength index := by
    rw [← made, correct.length_encrypt] at length
    omega
  rw [← openedLength] at context
  refine Ensures.bind_eq (requireAesKey_eq_ok keyLength) (Ensures.bind_eq context ?_)
  refine Ensures.bind_eq counter ?_
  rw [made]
  rfl

theorem length_of_encryptChunk (correct : aead.Correct) {piece ciphertext : Bytes} {index : Nat}
    (encrypted : encryptChunk aead piece contentKey manifest index = .ok ciphertext) :
    ciphertext.length = manifest.chunkLength index := by
  obtain ⟨_, aad, nonce, context, _, rfl⟩ := encryptChunk_eq_ok encrypted
  obtain ⟨place, same, inside, length⟩ := manifest.chunkAad_eq_ok context
  cases Int.ofNat_inj.mp same
  have stored := manifest.chunkLength_eq inside
  rw [correct.length_encrypt]
  omega

theorem decryptChunks_yields (correct : aead.Correct) (genuine : aead.Genuine)
    (contentKey : Bytes) {first count : Nat} (inside : first + count ≤ manifest.chunkCount)
    (rest : Bytes) :
    let streamed := decryptChunks aead manifest contentKey (range' first count) rest
    ∃ ciphertexts, Encrypts aead manifest contentKey first streamed.yielded ciphertexts ∧
      ciphertexts.flatten <+: rest ∧ streamed.yielded.length ≤ count ∧
      (streamed.failure = none →
        streamed.yielded.length = count ∧ ciphertexts.flatten = rest) := by
  induction count generalizing first rest with
  | zero =>
    refine ⟨[], ?_⟩
    rw [range'_zero, decryptChunks]
    by_cases left : rest ≠ []
    · rw [if_pos left]
      exact ⟨.nil first, nil_prefix, Nat.le_refl 0, nofun⟩
    · rw [if_neg left]
      exact ⟨.nil first, nil_prefix, Nat.le_refl 0, fun _ => ⟨rfl, (not_not.mp left).symm⟩⟩
  | succ count ih =>
    rw [range'_succ, decryptChunks]
    split
    · exact ⟨[], .nil first, nil_prefix, Nat.zero_le _, nofun⟩
    rename_i full
    cases decrypted : decryptChunk aead
        (rest.take (manifest.plaintextLength first + eufGcmTagSize).toNat) contentKey
          manifest first with
    | error error => exact ⟨[], .nil first, nil_prefix, Nat.zero_le _, nofun⟩
    | ok opened =>
      cases opened with
      | none => exact ⟨[], .nil first, nil_prefix, Nat.zero_le _, nofun⟩
      | some piece =>
        obtain ⟨ciphertexts, encrypts, front, length, finished⟩ :=
          ih (show first + 1 + count ≤ manifest.chunkCount by omega)
            (rest.drop (manifest.plaintextLength first + eufGcmTagSize).toNat)
        refine ⟨_ :: ciphertexts,
          .cons (encryptChunk_of_decryptChunk correct genuine decrypted) encrypts,
          ?_, Nat.succ_le_succ length, fun ended => ?_⟩
        · conv_rhs => rw [← take_append_drop
            (manifest.plaintextLength first + eufGcmTagSize).toNat rest]
          exact (prefix_append_right_inj _).mpr front
        · obtain ⟨all, same⟩ := finished ended
          refine ⟨congrArg Nat.succ all, ?_⟩
          rw [flatten_cons, same, take_append_drop]

variable {pieces ciphertexts : List Bytes}

theorem decryptChunks_of_encrypts (correct : aead.Correct) {first : Nat}
    (encrypts : Encrypts aead manifest contentKey first pieces ciphertexts) :
    decryptChunks aead manifest contentKey (range' first pieces.length)
      ciphertexts.flatten = { yielded := pieces, failure := none } := by
  induction encrypts with
  | nil index => rfl
  | @cons index piece ciphertext pieces ciphertexts here later ih =>
    have decrypted := decryptChunk_encryptChunk correct here
    obtain ⟨_, length⟩ := decryptChunk_checked decrypted
    have exactLength :
        (manifest.plaintextLength index + eufGcmTagSize).toNat = ciphertext.length := by
      omega
    rw [length_cons, range'_succ, decryptChunks, flatten_cons]
    rw [exactLength, take_left, if_neg (not_not.mpr rfl), decrypted, drop_left]
    dsimp only
    rw [ih, Streamed.yielding]

theorem Encrypts.storedRange (correct : aead.Correct) {first : Nat}
    (encrypts : Encrypts aead manifest contentKey first pieces ciphertexts) (data : Bytes)
    (inside : first + pieces.length ≤ manifest.chunkCount)
    (front : ciphertexts.flatten <+: data.drop (manifest.boundary first)) :
    ∀ position (within : position < pieces.length),
      encryptChunk aead pieces[position] contentKey manifest (first + position : Nat) =
        .ok (manifest.storedRange data (first + position)) := by
  induction encrypts with
  | nil index => exact fun position within => absurd within (Nat.not_lt_zero position)
  | @cons index piece ciphertext pieces ciphertexts here later ih =>
    rw [length_cons] at inside
    rw [flatten_cons] at front
    have length := length_of_encryptChunk correct here
    intro position within
    cases position with
    | zero =>
      rw [Nat.add_zero, getElem_cons_zero, here,
        manifest.storedRange_eq (show index < manifest.chunkCount by omega), ← length]
      congr 1
      exact (prefix_iff_eq_take.mp ((prefix_append _ _).trans front))
    | succ position =>
      have behind : ciphertexts.flatten <+: data.drop (manifest.boundary (index + 1)) := by
        rw [manifest.boundary_succ, ← drop_drop, ← length]
        have dropped := front.drop ciphertext.length
        rwa [drop_left] at dropped
      have found := ih (by omega) behind position (Nat.lt_of_succ_lt_succ within)
      rw [Nat.add_right_comm, Nat.add_assoc] at found
      exact found

theorem flatten_take_plaintextChunks (plaintext : Bytes) {count : Nat}
    (inside : count ≤ manifest.chunkCount) :
    ((manifest.plaintextChunks plaintext).take count).flatten =
      plaintext.take (count * manifest.chunkSize) := by
  rw [Manifest.plaintextChunks, ← map_take, take_range, Nat.min_eq_left inside]
  clear inside
  induction count with
  | zero => simp
  | succ count ih =>
    rw [range_succ, map_append, flatten_append, ih, Nat.succ_mul, take_add]
    simp [Manifest.plaintextChunk]

theorem iterDecryptedChunks_decryptsPrefix (correct : aead.Correct) (genuine : aead.Genuine) :
    DecryptsPrefix aead manifest contentKey data
      (iterDecryptedChunks aead data manifest contentKey) := by
  unfold iterDecryptedChunks
  rw [range_eq_range']
  obtain ⟨ciphertexts, encrypts, front, length, finished⟩ :=
    decryptChunks_yields correct genuine contentKey (Nat.zero_add manifest.chunkCount).le data
  constructor
  · exact ⟨ciphertexts, encrypts, front, finished⟩
  · intro plaintext only
    have places := encrypts.storedRange correct data (by omega)
      (by rwa [manifest.boundary_zero, drop_zero])
    have chunks : (decryptChunks aead manifest contentKey
        (range' 0 manifest.chunkCount) data).yielded <+:
          manifest.plaintextChunks plaintext := by
      rw [prefix_iff_getElem]
      refine ⟨by rwa [Manifest.plaintextChunks, length_map, length_range], ?_⟩
      intro position within
      have found := places position within
      rw [Nat.zero_add] at found
      rw [only position (by omega) _ found]
      simp [Manifest.plaintextChunks]
    refine ⟨chunks, ?_⟩
    have same := flatten_take_plaintextChunks plaintext length
    rwa [← prefix_iff_eq_take.mp chunks] at same
  · rintro pieces parts all whole rfl
    rw [← all]
    exact decryptChunks_of_encrypts correct whole

end XFerry.Encrypted
