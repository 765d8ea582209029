/-
The capacity that the encrypted storage advertises.

It is computed from the scan and the reservations, and what a `create` asks for is
computed again from the same.  Both begin with the same expiry of incomplete transfers.
-/

import XFerry.BinarySearch
import XFerry.Ensures
import XFerry.Storage.Quota

namespace XFerry.Storage

open Encrypted (FileId Manifest eufChunkSize eufGcmTagSize eufMaxFileSize)
open Python

structure CapacitySnapshot where
  usedBytes : Nat
  quotaBytes : Option Nat
  diskFreeBytes : Nat
  reservedFreeBytes : Nat
  availableBytes : Nat
  fileCount : Nat
  fileLimit : Option Nat
  remainingFiles : Option Nat

namespace UploadStorageService

variable (policy : UploadStoragePolicy)

/-- `capacity` of the upload storage.  `toNat` is the `max(0, ..)` of the source. -/
def capacity (storage : UploadStorageService) (disk : Disk) : CapacitySnapshot :=
  let usage := currentUsage storage.directory
  let free : Int := disk.freeBytes - policy.reservedFreeBytes - storage.reservedBytes -
    disk.unallocatedEncryptedBytes
  let available := match policy.maxTotalBytes with
    | none => free.toNat
    | some limit => min free.toNat (limit - usage.totalBytes - storage.reservedBytes : Int).toNat
  { usedBytes := usage.totalBytes
    quotaBytes := policy.maxTotalBytes
    diskFreeBytes := disk.freeBytes
    reservedFreeBytes := policy.reservedFreeBytes
    availableBytes := available
    fileCount := usage.fileCount
    fileLimit := policy.maxFileCount
    remainingFiles := policy.maxFileCount.map fun limit : Nat =>
      (limit - usage.fileCount - storage.reservedFiles : Int).toNat }

/-- `_expire_incomplete_locked`, which deletes the transfers it finds to be too old. -/
def expireIncomplete (storage : UploadStorageService) (expired : List FileId) :
    UploadStorageService :=
  { storage with
    files := expired.foldl (fun files fileId =>
      (files.erase (.part fileId)).erase (.complete fileId)) storage.files }

end UploadStorageService

structure EncryptedCapacity extends CapacitySnapshot where
  maxPlaintextSize : Nat
  technicalMaxPlaintextSize : Nat
  configuredMaxPlaintextSize : Nat

def sealedSize (plaintextSize : Nat) : Nat :=
  plaintextSize + (plaintextSize + eufChunkSize - 1) / eufChunkSize * eufGcmTagSize

structure EncryptedStorageService where
  uploadStorage : UploadStorageService
  policy : UploadStoragePolicy
  maxPlaintextSize : Nat
  maxPlaintextSize_le : maxPlaintextSize ≤ eufMaxFileSize

/-- Why a `create` is refused before its reservation. -/
inductive CreateRefusal where
  | validation
  | conflict
  | quota (denial : Denial)

namespace EncryptedStorageService

def construct (uploadStorage : UploadStorageService) (policy : UploadStoragePolicy)
    (maxPlaintextSize : Nat) : EncryptedStorageService :=
  { uploadStorage := uploadStorage
    policy := policy
    maxPlaintextSize :=
      min (if maxPlaintextSize = 0 then eufMaxFileSize else maxPlaintextSize) eufMaxFileSize
    maxPlaintextSize_le := min_le_right _ _ }

/-- `capacity` of the encrypted storage. -/
def capacity (service : EncryptedStorageService) (disk : Disk) (expired : List FileId) :
    EncryptedCapacity :=
  let storage := service.uploadStorage.expireIncomplete expired
  let snapshot := storage.capacity service.policy disk
  let low := BinarySearch.largest (fun middle => sealedSize middle ≤ snapshot.availableBytes) 0
    (min service.maxPlaintextSize snapshot.availableBytes)
  { snapshot with
    maxPlaintextSize := if snapshot.remainingFiles = some 0 then 0 else low
    technicalMaxPlaintextSize := eufMaxFileSize
    configuredMaxPlaintextSize := service.maxPlaintextSize }

/-- `create` up to its reservation, for a file ID without a journal. -/
def create (service : EncryptedStorageService) (disk : Disk) (expired : List FileId)
    (manifest : Manifest) : Except CreateRefusal UploadStorageService :=
  let storage := service.uploadStorage.expireIncomplete expired
  if service.maxPlaintextSize < manifest.plaintextSize then .error .validation
  else if (storage.files.lookup (.part manifest.fileId)).isSome ∨
      (storage.files.lookup (.complete manifest.fileId)).isSome then
    .error .conflict
  else
    match storage.reserve service.policy disk manifest.ciphertextSize with
    | .error denial => .error (.quota denial)
    | .ok held => .ok held

end EncryptedStorageService

variable {size : Nat}

theorem checkAccepts_eq_ok_iff {policy : UploadStoragePolicy} {storage : UploadStorageService}
    {disk : Disk} :
    checkAccepts policy storage disk size true = .ok () ↔
      Fits policy storage size ∧
        policy.reservedFreeBytes + disk.unallocatedEncryptedBytes +
          (storage.reservedBytes + size) ≤ disk.freeBytes := by
  rw [fits_iff, checkAccepts]
  cases bytes : exceeds policy.maxTotalBytes ((currentUsage storage.directory).totalBytes +
      storage.reservedBytes + size) with
  | true => simp
  | false =>
    cases files : exceeds policy.maxFileCount ((currentUsage storage.directory).fileCount +
        storage.reservedFiles + 1) with
    | true => simp
    | false =>
      simp only [Bool.false_eq_true, if_false, if_true, and_self, true_and]
      split
      · case isTrue short => simp only [reduceCtorEq, false_iff]; omega
      · case isFalse enough => simp only [true_iff]; omega

section Snapshot

variable {policy : UploadStoragePolicy} {storage : UploadStorageService} {disk : Disk}

/-- A positive number of bytes is available if the quota and the disk leave room for it. -/
theorem le_availableBytes_iff (positive : 0 < size) :
    size ≤ (storage.capacity policy disk).availableBytes ↔
      (∀ limit, policy.maxTotalBytes = some limit →
        storage.usage .bytes + storage.reservedBytes + size ≤ limit) ∧
        policy.reservedFreeBytes + disk.unallocatedEncryptedBytes +
          (storage.reservedBytes + size) ≤ disk.freeBytes := by
  rw [UploadStorageService.capacity]
  cases limited : policy.maxTotalBytes with
  | none =>
    simp only [reduceCtorEq, false_implies, implies_true, true_and]
    omega
  | some limit =>
    simp only [Option.some.injEq, forall_eq', le_min_iff, currentUsage_totalBytes]
    omega

theorem remainingFiles_eq_zero_iff :
    (storage.capacity policy disk).remainingFiles = some 0 ↔
      ¬ ∀ limit, policy.maxFileCount = some limit →
        storage.usage .files + storage.reservedFiles + 1 ≤ limit := by
  rw [UploadStorageService.capacity]
  cases limited : policy.maxFileCount with
  | none => simp
  | some limit =>
    simp only [Option.map_some, Option.some.injEq, forall_eq', currentUsage_fileCount]
    omega

theorem checkAccepts_iff_capacity (positive : 0 < size) :
    checkAccepts policy storage disk size true = .ok () ↔
      size ≤ (storage.capacity policy disk).availableBytes ∧
        (storage.capacity policy disk).remainingFiles ≠ some 0 := by
  rw [checkAccepts_eq_ok_iff, le_availableBytes_iff positive, Ne, remainingFiles_eq_zero_iff,
    not_not]
  constructor
  · rintro ⟨fits, free⟩
    exact ⟨⟨fits .bytes, free⟩, fits .files⟩
  · rintro ⟨⟨bytes, free⟩, files⟩
    refine ⟨?_, free⟩
    intro resource
    cases resource with
    | bytes => exact bytes
    | files => exact files

end Snapshot

theorem le_sealedSize (size : Nat) : size ≤ sealedSize size := Nat.le_add_right _ _

theorem sealedSize_mono {smaller larger : Nat} (ordered : smaller ≤ larger) :
    sealedSize smaller ≤ sealedSize larger := by
  refine Nat.add_le_add ordered (Nat.mul_le_mul_right _ (Nat.div_le_div_right ?_))
  omega

theorem ciphertextSize_eq_sealedSize (manifest : Manifest) :
    manifest.ciphertextSize = sealedSize manifest.plaintextSize := by
  rw [Manifest.ciphertextSize, manifest.chunkCount_eq, manifest.chunkSize_eq]
  rfl

namespace EncryptedStorageService

/-- A transfer of so many bytes passes the configured size and the check of its
reservation. -/
def Admits (service : EncryptedStorageService) (disk : Disk) (expired : List FileId)
    (plaintextSize : Nat) : Prop :=
  plaintextSize ≤ service.maxPlaintextSize ∧
    checkAccepts service.policy (service.uploadStorage.expireIncomplete expired) disk
      (sealedSize plaintextSize) true = .ok ()

def Fresh (service : EncryptedStorageService) (expired : List FileId) (fileId : FileId) : Prop :=
  (service.uploadStorage.expireIncomplete expired).files.lookup (.part fileId) = none ∧
    (service.uploadStorage.expireIncomplete expired).files.lookup (.complete fileId) = none

theorem succeeds_create_iff {service : EncryptedStorageService} {disk : Disk}
    {expired : List FileId} {manifest : Manifest} (fresh : service.Fresh expired manifest.fileId) :
    Succeeds (service.create disk expired manifest) ↔
      service.Admits disk expired manifest.plaintextSize := by
  rw [create, Admits, UploadStorageService.reserve, ciphertextSize_eq_sealedSize, fresh.1, fresh.2]
  by_cases large : service.maxPlaintextSize < manifest.plaintextSize
  · rw [if_pos large]
    exact iff_of_false (Succeeds.not_error _) fun both => absurd both.1 (Nat.not_le.mpr large)
  rw [if_neg large, if_neg (by simp)]
  cases checked : checkAccepts service.policy (service.uploadStorage.expireIncomplete expired)
      disk (sealedSize manifest.plaintextSize) true with
  | error denial =>
    refine iff_of_false (Succeeds.not_error _) ?_
    rintro ⟨_, same⟩
    cases same
  | ok _ => exact iff_of_true (.ok _) ⟨Nat.le_of_not_lt large, rfl⟩

theorem admits_iff_le (service : EncryptedStorageService) (disk : Disk) (expired : List FileId)
    {plaintextSize : Nat} (positive : 0 < plaintextSize) :
    service.Admits disk expired plaintextSize ↔
      plaintextSize ≤ (service.capacity disk expired).maxPlaintextSize := by
  have sealedPositive : 0 < sealedSize plaintextSize := Nat.lt_of_lt_of_le positive
    (le_sealedSize _)
  rw [Admits, checkAccepts_iff_capacity sealedPositive, capacity]
  generalize (service.uploadStorage.expireIncomplete expired).capacity service.policy disk =
    snapshot
  dsimp only
  by_cases full : snapshot.remainingFiles = some 0
  · rw [if_pos full]
    refine iff_of_false ?_ (by omega)
    rintro ⟨_, _, room⟩
    exact room full
  · rw [if_neg full]
    have closed (smaller larger : Nat) (ordered : smaller ≤ larger)
        (fits : sealedSize larger ≤ snapshot.availableBytes) :
        sealedSize smaller ≤ snapshot.availableBytes :=
      (sealedSize_mono ordered).trans fits
    have zeroFits : sealedSize 0 ≤ snapshot.availableBytes := by
      exact Nat.zero_le _
    constructor
    · rintro ⟨configured, fits, _⟩
      have inRange := le_min configured ((le_sealedSize _).trans fits)
      exact (BinarySearch.le_largest_iff closed zeroFits (Nat.zero_le _) inRange).mpr fits
    · intro below
      have greatest := BinarySearch.isGreatest_largest closed zeroFits
        (Nat.zero_le (min service.maxPlaintextSize snapshot.availableBytes))
      have inRange := below.trans greatest.1.1
      refine ⟨inRange.trans (min_le_left _ _), ?_, full⟩
      exact closed plaintextSize _ below greatest.1.2

/-- The advertised maximum is exact: whatever the state and the disk, a transfer with
some plaintext is admitted if and only if it does not exceed it, and the maximum is the
largest size that is. -/
theorem capacity_exact (service : EncryptedStorageService) (disk : Disk) (expired : List FileId) :
    (∀ manifest : Manifest, 0 < manifest.plaintextSize → service.Fresh expired manifest.fileId →
      (Succeeds (service.create disk expired manifest) ↔
        manifest.plaintextSize ≤ (service.capacity disk expired).maxPlaintextSize)) ∧
      (∀ plaintextSize, 0 < plaintextSize →
        (service.Admits disk expired plaintextSize ↔
          plaintextSize ≤ (service.capacity disk expired).maxPlaintextSize)) ∧
      IsGreatest {size | size = 0 ∨ service.Admits disk expired size}
        (service.capacity disk expired).maxPlaintextSize := by
  refine ⟨?_, ?_, ?_, ?_⟩
  · intro manifest positive fresh
    rw [succeeds_create_iff fresh]
    exact service.admits_iff_le disk expired positive
  · exact fun plaintextSize positive => service.admits_iff_le disk expired positive
  · rcases Nat.eq_zero_or_pos (service.capacity disk expired).maxPlaintextSize with zero | positive
    · exact .inl zero
    · exact .inr ((service.admits_iff_le disk expired positive).mpr (le_refl _))
  · intro size member
    rcases Nat.eq_zero_or_pos size with zero | positive
    · exact zero ▸ Nat.zero_le _
    · have admitted := member.resolve_left (Nat.pos_iff_ne_zero.mp positive)
      exact (service.admits_iff_le disk expired positive).mp admitted

end EncryptedStorageService

def oneByteManifest : Manifest :=
  { Encrypted.sampleManifest with fileId := Encrypted.sampleFileId }

def quotaOfTwenty : EncryptedStorageService :=
  .construct UploadStorageService.empty
    { maxTotalBytes := some 20, maxFileCount := some 1, reservedFreeBytes := 0 } 0

def halfFullDisk : Disk := { freeBytes := 1000, unallocatedEncryptedBytes := 500 }

/-- Of a quota of twenty bytes, a tag leaves a plaintext of four. -/
theorem quotaOfTwenty_exact :
    Succeeds (quotaOfTwenty.create halfFullDisk [] oneByteManifest) ∧
      quotaOfTwenty.Admits halfFullDisk [] 4 ∧ ¬ quotaOfTwenty.Admits halfFullDisk [] 5 := by
  have four : (quotaOfTwenty.capacity halfFullDisk []).maxPlaintextSize = 4 := by decide +kernel
  have exact_ := EncryptedStorageService.capacity_exact quotaOfTwenty halfFullDisk []
  rw [four] at exact_
  refine ⟨?_, ?_, ?_⟩
  · exact (exact_.1 oneByteManifest (by decide) ⟨rfl, rfl⟩).mpr (by decide)
  · exact (exact_.2.1 4 (by decide)).mpr (le_refl _)
  · exact fun admits => absurd ((exact_.2.1 5 (by decide)).mp admits) (by decide)

end XFerry.Storage
