/-
What the limits of the storage policy are worth.

Bytes and files are limited the same way, so every fact is stated once for a
resource.  Usage and reservations together stay within a limit, except for the
partial file of a `create` that still holds its reservation: it is counted twice.
-/

import XFerry.Storage.UploadStorage

namespace XFerry.Storage

open Encrypted (FileId)
open EventMachine Python List UploadStorageService

inductive Resource where
  | bytes
  | files

namespace Resource

def weigh : Resource → Nat → Nat
  | bytes, size => size
  | files, _ => 1

theorem weigh_le {least most : Nat} (resource : Resource) (bound : least ≤ most) :
    resource.weigh least ≤ resource.weigh most := by
  cases resource with
  | bytes => exact bound
  | files => exact Nat.le_refl 1

/-- What a file uses up in the eyes of `current_usage`. -/
def count (resource : Resource) (file : StoredPath × Nat) : Nat :=
  if isServiceTempPath file.1 then 0 else resource.weigh file.2

theorem count_le (resource : Resource) (file : StoredPath × Nat) :
    resource.count file ≤ resource.weigh file.2 := by
  unfold count
  split
  · exact Nat.zero_le _
  · exact Nat.le_refl _

def promise (resource : Resource) (entry : Nat × Upload) : Nat :=
  if entry.2.reserved then resource.weigh entry.2.size else 0

end Resource

def UploadStoragePolicy.limit (policy : UploadStoragePolicy) : Resource → Option Nat
  | .bytes => policy.maxTotalBytes
  | .files => policy.maxFileCount

def CreationStage.onDiskWeight (resource : Resource) : CreationStage → Nat
  | onDisk bytes => resource.weigh bytes
  | reserved | dropped => 0

namespace UploadStorageService

def reserved (storage : UploadStorageService) : Resource → Int
  | .bytes => storage.reservedBytes
  | .files => storage.reservedFiles

def usage (storage : UploadStorageService) (resource : Resource) : Nat :=
  storage.files.total resource.count

def promised (storage : UploadStorageService) (resource : Resource) : Nat :=
  storage.uploads.total resource.promise +
    (storage.creation.map fun creation => resource.weigh creation.size).getD 0

def overlap (storage : UploadStorageService) (resource : Resource) : Nat :=
  (storage.creation.map fun creation => creation.stage.onDiskWeight resource).getD 0

end UploadStorageService

/-! ### The check -/

section Check

variable {policy : UploadStoragePolicy} {storage : UploadStorageService} {disk : Disk}
  {size : Nat} {requireFree : Bool}

theorem temps_filter (storage : UploadStorageService) :
    (storage.temps.filter fun file => !isServiceTempPath file.1) = [] := by
  rw [filter_eq_nil_iff]
  intro file member
  obtain ⟨entry, _, made⟩ := mem_filterMap.mp member
  obtain ⟨token, _, rfl⟩ := Option.map_eq_some_iff.mp made
  exact Bool.false_ne_true

theorem sum_filter_count (resource : Resource) (files : List (StoredPath × Nat)) :
    ((files.filter fun file => !isServiceTempPath file.1).map fun file =>
      resource.weigh file.2).sum = (files.map resource.count).sum := by
  induction files with
  | nil => rfl
  | cons file rest ih =>
    rw [map_cons, sum_cons, ← ih, filter_cons, Resource.count]
    cases isServiceTempPath file.1 with
    | true | false => simp

theorem currentUsage_totalBytes (storage : UploadStorageService) :
    (currentUsage storage.directory).totalBytes = storage.usage .bytes := by
  rw [currentUsage, directory, filter_append, temps_filter, append_nil]
  exact sum_filter_count .bytes storage.files.entries

theorem currentUsage_fileCount (storage : UploadStorageService) :
    (currentUsage storage.directory).fileCount = storage.usage .files := by
  have counted := sum_filter_count .files storage.files.entries
  rw [currentUsage, directory, filter_append, temps_filter,
    append_nil, usage, OrderedDict.total, ← counted]
  simp [Resource.weigh]

theorem exceeds_eq_false {limit : Option Nat} {amount : Int} :
    exceeds limit amount = false ↔ ∀ bound, limit = some bound → amount ≤ bound := by
  cases limit with
  | none => exact iff_of_true rfl fun bound absent => nomatch absent
  | some limit =>
    rw [exceeds, decide_eq_false_iff_not, Int.not_lt]
    constructor
    · rintro within bound ⟨⟩
      exact within
    · exact fun within => within limit rfl

def Fits (policy : UploadStoragePolicy) (storage : UploadStorageService) (size : Nat) : Prop :=
  ∀ (resource : Resource) (limit : Nat), policy.limit resource = some limit →
    storage.usage resource + storage.reserved resource + resource.weigh size ≤ limit

theorem fits_iff :
    Fits policy storage size ↔
      exceeds policy.maxTotalBytes ((currentUsage storage.directory).totalBytes +
          storage.reservedBytes + size) = false ∧
        exceeds policy.maxFileCount ((currentUsage storage.directory).fileCount +
          storage.reservedFiles + 1) = false := by
  rw [exceeds_eq_false, exceeds_eq_false, currentUsage_totalBytes, currentUsage_fileCount]
  constructor
  · exact fun fits => ⟨fits .bytes, fits .files⟩
  · rintro ⟨bytes, files⟩ resource
    cases resource with
    | bytes => exact bytes
    | files => exact files

theorem checkAccepts_fits_iff :
    Fits policy storage size ↔
      checkAccepts policy storage disk size requireFree = .ok () ∨
        checkAccepts policy storage disk size requireFree = .error .freeSpace := by
  rw [fits_iff, checkAccepts]
  cases bytes : exceeds policy.maxTotalBytes ((currentUsage storage.directory).totalBytes +
      storage.reservedBytes + size) with
  | true => simp
  | false =>
    cases files : exceeds policy.maxFileCount ((currentUsage storage.directory).fileCount +
        storage.reservedFiles + 1) with
    | true => simp
    | false =>
      simp only [Bool.false_eq_true, if_false, and_self, true_iff]
      by_cases short : (disk.freeBytes : Int) < policy.reservedFreeBytes +
          disk.unallocatedEncryptedBytes +
          (if requireFree then storage.reservedBytes + size else 0)
      · rw [if_pos short]
        exact .inr rfl
      · rw [if_neg short]
        exact .inl rfl

theorem fits_of_reserve {held : UploadStorageService}
    (granted : storage.reserve policy disk size = .ok held) :
    Fits policy storage size ∧ held = storage.hold size := by
  unfold reserve at granted
  cases checked : checkAccepts policy storage disk size true with
  | error denial =>
    rw [checked] at granted
    cases granted
  | ok _ =>
    rw [checked] at granted
    cases granted
    exact ⟨checkAccepts_fits_iff.mpr (.inl checked), rfl⟩

end Check

/-! ### The invariant -/

def CreationStage.Stored (stage : CreationStage) (size : Nat) (part : Option Nat) : Prop :=
  match stage with
  | onDisk bytes => part = some bytes ∧ bytes ≤ size
  | reserved | dropped => part = none

structure Sound (policy : UploadStoragePolicy) (storage : UploadStorageService) : Prop where
  reserved : ∀ resource, storage.reserved resource = storage.promised resource
  within : ∀ (resource : Resource) (limit : Nat), policy.limit resource = some limit →
    storage.usage resource + storage.reserved resource ≤ limit + storage.overlap resource
  part : ∀ creation, storage.creation = some creation →
    creation.stage.Stored creation.size (storage.files.lookup (.part creation.fileId))

section Accounts

variable {storage : UploadStorageService} {resource : Resource} {size : Nat}

theorem uploadTempPrefix_eq : uploadTempPrefix = '.' :: "upload-tmp-".toList := by
  decide +kernel

theorem isServiceTempPath_fileId (fileId : FileId) (ending : Text) :
    uploadTempPrefix.isPrefixOf (fileId.text ++ ending) = false := by
  obtain ⟨text, canonical⟩ := fileId
  rw [Encrypted.isFileIdText, Bool.and_eq_true, decide_eq_true_eq] at canonical
  cases text with
  | nil => exact absurd canonical.1 (by decide)
  | cons char rest =>
    have hexadecimal := canonical.2
    rw [all_cons, Bool.and_eq_true] at hexadecimal
    have other : char ≠ '.' := by
      rintro rfl
      exact Bool.false_ne_true hexadecimal.1
    rw [uploadTempPrefix_eq, cons_append, isPrefixOf_cons_cons, Bool.and_eq_false_iff,
      beq_eq_false_iff_ne]
    exact .inl other.symm

theorem count_part (resource : Resource) (fileId : FileId) (size : Nat) :
    resource.count (.part fileId, size) = resource.weigh size :=
  if_neg (by rw [isServiceTempPath, StoredPath.name, isServiceTempPath_fileId]; decide)

theorem count_complete (resource : Resource) (fileId : FileId) (size : Nat) :
    resource.count (.complete fileId, size) = resource.weigh size :=
  if_neg (by rw [isServiceTempPath, StoredPath.name, isServiceTempPath_fileId]; decide)

theorem weightAt_of_lookup {Key Value : Type} [DecidableEq Key] {dict : OrderedDict Key Value}
    {key : Key} {weigh : Key × Value → Nat} {value : Value}
    (found : dict.lookup key = some value) : dict.weightAt weigh key = weigh (key, value) := by
  rw [OrderedDict.weightAt, found]
  rfl

theorem weightAt_of_absent {Key Value : Type} [DecidableEq Key] {dict : OrderedDict Key Value}
    {key : Key} {weigh : Key × Value → Nat} (absent : dict.lookup key = none) :
    dict.weightAt weigh key = 0 := by
  rw [OrderedDict.weightAt, absent]
  rfl

@[simp] theorem reserved_hold (storage : UploadStorageService) (size : Nat) (resource : Resource) :
    (storage.hold size).reserved resource = storage.reserved resource + resource.weigh size := by
  cases resource with
  | bytes | files => rfl

@[simp] theorem reserved_release (storage : UploadStorageService) (size : Nat)
    (resource : Resource) :
    (storage.release size).reserved resource =
      storage.reserved resource - resource.weigh size := by
  cases resource with
  | bytes | files => rfl

end Accounts

variable {upload : Upload} {creation : Creation} {id : Nat}

section Steps

variable {policy : UploadStoragePolicy} {storage : UploadStorageService}

/-- A change of the reservations that the operations in flight account for, of
which the limits take notice. -/
structure Rebooked (policy : UploadStoragePolicy) (storage next : UploadStorageService) : Prop where
  files : next.files = storage.files
  creation : next.creation = storage.creation
  balanced : ∀ resource, next.reserved resource + storage.uploads.total resource.promise =
    storage.reserved resource + next.uploads.total resource.promise
  fits : ∀ (resource : Resource) (limit : Nat), policy.limit resource = some limit →
    next.reserved resource ≤ storage.reserved resource ∨
      storage.usage resource + next.reserved resource ≤ limit

theorem Sound.rebooked {next : UploadStorageService} (sound : Sound policy storage)
    (rebooked : Rebooked policy storage next) : Sound policy next where
  reserved := by
    intro resource
    have before := sound.reserved resource
    have change := rebooked.balanced resource
    rw [promised] at before ⊢
    rw [rebooked.creation]
    omega
  within := by
    intro resource limit limited
    have before := sound.within resource limit limited
    have same : next.usage resource = storage.usage resource := by
      rw [usage, rebooked.files]
      rfl
    have overlap : next.overlap resource = storage.overlap resource := by
      rw [overlap, rebooked.creation]
      rfl
    rw [same, overlap]
    cases rebooked.fits resource limit limited with
    | inl | inr => omega
  part := by
    rw [rebooked.creation, rebooked.files]
    exact sound.part

theorem rebooked_reserve {id size : Nat} {name : Text}
    (absent : storage.uploads.lookup id = none) (fits : Fits policy storage size) :
    Rebooked policy storage
      { storage.hold size with
        uploads := storage.uploads.assign id
          { name := name, size := size, temp := none, reserved := true } } where
  files := rfl
  creation := rfl
  balanced := by
    intro resource
    have total := storage.uploads.total_assign_add resource.promise id
      { name := name, size := size, temp := none, reserved := true }
    rw [weightAt_of_absent absent] at total
    change (storage.hold size).reserved resource + _ = _
    rw [reserved_hold]
    change _ = _ + ((storage.uploads.assign id _).total resource.promise : Int)
    change _ = storage.uploads.total resource.promise + resource.weigh size at total
    omega
  fits := by
    intro resource limit limited
    right
    change _ + (storage.hold size).reserved resource ≤ _
    rw [reserved_hold, ← Int.add_assoc]
    exact fits resource limit limited

theorem rebooked_uploads (uploads : OrderedDict Nat Upload) (size : Nat)
    (released : Bool) (total : ∀ resource : Resource, uploads.total resource.promise +
      (if released then resource.weigh size else 0) = storage.uploads.total resource.promise) :
    Rebooked policy storage
      { (if released then storage.release size else storage) with uploads := uploads } := by
  cases released with
  | false =>
    refine ⟨rfl, rfl, fun resource => ?_, fun _ _ _ => .inl (le_refl _)⟩
    have total := total resource
    rw [if_neg Bool.false_ne_true] at total
    change storage.reserved resource + _ = _ + (uploads.total resource.promise : Int)
    omega
  | true =>
    refine { files := rfl, creation := rfl, balanced := ?_, fits := ?_ }
    · intro resource
      have total := total resource
      rw [if_pos rfl] at total
      change (storage.release size).reserved resource + _ =
        _ + (uploads.total resource.promise : Int)
      rw [reserved_release]
      omega
    · intro resource limit _
      left
      change (storage.release size).reserved resource ≤ _
      rw [reserved_release]
      omega

theorem rebooked_assign
    (found : storage.uploads.lookup id = some upload) (temp : Option Text) (reserved : Bool)
    (kept : upload.reserved = true) :
    Rebooked policy storage { (if reserved then storage else storage.release upload.size) with
        uploads :=
          storage.uploads.assign id { upload with temp := temp, reserved := reserved } } := by
  have total (resource : Resource) := storage.uploads.total_assign_add resource.promise id
    { upload with temp := temp, reserved := reserved }
  have before (resource : Resource) : storage.uploads.weightAt resource.promise id =
      resource.weigh upload.size := by
    rw [weightAt_of_lookup found, Resource.promise, kept, if_pos rfl]
  cases reserved with
  | true =>
    refine rebooked_uploads _ upload.size false fun resource => ?_
    have total := total resource
    rw [before] at total
    exact Nat.add_right_cancel total
  | false =>
    refine rebooked_uploads _ upload.size true fun resource => ?_
    rw [if_pos rfl, ← before]
    exact total resource

theorem rebooked_erase (found : storage.uploads.lookup id = some upload) :
    Rebooked policy storage
      { (if upload.reserved then storage.release upload.size else storage) with
        uploads := storage.uploads.erase id } := by
  refine rebooked_uploads _ upload.size upload.reserved fun resource => ?_
  have total := storage.uploads.total_erase_add resource.promise id
  rw [weightAt_of_lookup found] at total
  exact total

theorem Sound.publishFile (sound : Sound policy storage)
    (found : storage.uploads.lookup id = some upload) (kept : upload.reserved = true)
    (name : Text) :
    Sound policy { storage.release upload.size with
        uploads := storage.uploads.assign id { upload with reserved := false }
        files := storage.files.assign (.upload name) upload.size } := by
  have released := sound.rebooked (rebooked_assign found upload.temp false kept)
  refine { reserved := released.reserved, within := ?_, part := ?_ }
  · intro resource limit limited
    have before := sound.within resource limit limited
    have total := storage.files.total_assign_add resource.count (.upload name) upload.size
    have counted := resource.count_le (.upload name, upload.size)
    change ((storage.files.assign (.upload name) upload.size).total resource.count : Int) +
      (storage.release upload.size).reserved resource ≤ limit + storage.overlap resource
    change (storage.files.total resource.count : Int) + _ ≤ _ at before
    rw [reserved_release]
    change resource.count (.upload name, upload.size) ≤ resource.weigh upload.size at counted
    omega
  · intro creation creating
    have part := sound.part creation creating
    have other : StoredPath.part creation.fileId ≠ .upload name := fun same => nomatch same
    rw [OrderedDict.lookup_assign, if_neg other]
    exact part

theorem Sound.reserveCreate (sound : Sound policy storage) (idle : storage.creation = none)
    {fileId : FileId} {size : Nat} (absent : storage.files.lookup (.part fileId) = none)
    (fits : Fits policy storage size) :
    Sound policy
      { storage.hold size with
        creation := some { fileId := fileId, size := size, stage := .reserved } } where
  reserved := by
    intro resource
    have before := sound.reserved resource
    rw [promised, idle] at before
    change (storage.hold size).reserved resource =
      ((storage.uploads.total resource.promise + resource.weigh size : Nat) : Int)
    change _ = ((storage.uploads.total resource.promise + 0 : Nat) : Int) at before
    rw [reserved_hold]
    omega
  within := by
    intro resource limit limited
    have room := fits resource limit limited
    change _ + (storage.hold size).reserved resource ≤ limit + ((0 : Nat) : Int)
    rw [reserved_hold]
    change (storage.usage resource : Int) + _ ≤ _
    omega
  part := by
    rintro creation ⟨⟩
    exact absent

variable {files : OrderedDict StoredPath Nat}

theorem Sound.restage (sound : Sound policy storage) (creating : storage.creation = some creation)
    {stage : CreationStage} (moved : ∀ resource : Resource, files.total resource.count +
      creation.stage.onDiskWeight resource =
        storage.files.total resource.count + stage.onDiskWeight resource)
    (part : stage.Stored creation.size (files.lookup (.part creation.fileId))) :
    Sound policy
      { storage with files := files, creation := some { creation with stage := stage } } where
  reserved := by
    intro resource
    have before := sound.reserved resource
    rw [promised, creating] at before
    exact before
  within := by
    intro resource limit limited
    have before := sound.within resource limit limited
    have moved := moved resource
    rw [overlap, creating] at before
    change (storage.files.total resource.count : Int) + storage.reserved resource ≤
      limit + (creation.stage.onDiskWeight resource : Int) at before
    change (files.total resource.count : Int) + storage.reserved resource ≤
      limit + (stage.onDiskWeight resource : Int)
    omega
  part := by
    rintro _ ⟨⟩
    exact part

theorem Sound.finishCreate (sound : Sound policy storage)
    (creating : storage.creation = some creation) (small : ∀ resource : Resource,
      creation.stage.onDiskWeight resource ≤ resource.weigh creation.size) :
    Sound policy { storage.release creation.size with creation := none } where
  reserved := by
    intro resource
    have before := sound.reserved resource
    rw [promised, creating] at before
    change _ = ((storage.uploads.total resource.promise +
      resource.weigh creation.size : Nat) : Int) at before
    change (storage.release creation.size).reserved resource =
      ((storage.uploads.total resource.promise + 0 : Nat) : Int)
    rw [reserved_release]
    omega
  within := by
    intro resource limit limited
    have before := sound.within resource limit limited
    have small := small resource
    rw [overlap, creating] at before
    change (storage.usage resource : Int) + storage.reserved resource ≤
      limit + (creation.stage.onDiskWeight resource : Int) at before
    change (storage.usage resource : Int) + (storage.release creation.size).reserved resource ≤
      limit + ((0 : Nat) : Int)
    rw [reserved_release]
    omega
  part := fun _ same => nomatch same

theorem Sound.refile (sound : Sound policy storage) (idle : storage.creation = none)
    (fewer : ∀ resource : Resource, files.total resource.count ≤
      storage.files.total resource.count) :
    Sound policy { storage with files := files } where
  reserved := sound.reserved
  within := by
    intro resource limit limited
    have before := sound.within resource limit limited
    have fewer := fewer resource
    change (storage.files.total resource.count : Int) + storage.reserved resource ≤
      limit + (storage.overlap resource : Int) at before
    change (files.total resource.count : Int) + storage.reserved resource ≤
      limit + (storage.overlap resource : Int)
    omega
  part := by
    intro creation creating
    rw [idle] at creating
    cases creating

end Steps

theorem Sound.empty (policy : UploadStoragePolicy) : Sound policy empty where
  reserved := by
    intro resource
    cases resource with
    | bytes | files => rfl
  within := by
    intro resource limit _
    cases resource with
    | bytes | files => exact Int.natCast_nonneg limit
  part := fun _ same => nomatch same

section Machine

variable {policy : UploadStoragePolicy} {isAlnum : Alphanumeric} {unicode : Unicode}
  {storage next : UploadStorageService}

section

variable (sound : Sound policy storage)
include sound

theorem Sound.publish
    (found : storage.uploads.lookup id = some upload) (kept : upload.reserved = true) (disk : Disk)
    (suffixes : Fin 63 → Text) (linkFails : Bool) :
    Sound policy (storage.publish policy disk id upload suffixes linkFails) := by
  have released := sound.rebooked (rebooked_assign found upload.temp false kept)
  unfold UploadStorageService.publish
  split
  · exact released
  split
  · exact released
  split
  · exact released
  · exact sound.publishFile found kept _

section

variable (creating : storage.creation = some creation)
include creating

theorem Sound.openPart (stage : creation.stage = .reserved) :
    Sound policy { storage with
        files := storage.files.assign (.part creation.fileId) 0
        creation := some { creation with stage := .onDisk 0 } } := by
  have absent := sound.part creation creating
  rw [stage] at absent
  apply sound.restage creating
  · intro resource
    have total := storage.files.total_assign_add resource.count (.part creation.fileId) 0
    rw [weightAt_of_absent absent, count_part] at total
    rw [stage]
    exact total
  · refine ⟨?_, Nat.zero_le _⟩
    rw [OrderedDict.lookup_assign, if_pos rfl]

theorem Sound.sizePart {bytes : Nat} (stage : creation.stage = .onDisk bytes) :
    Sound policy { storage with
        files := storage.files.assign (.part creation.fileId) creation.size
        creation := some { creation with stage := .onDisk creation.size } } := by
  have present := sound.part creation creating
  rw [stage] at present
  apply sound.restage creating
  · intro resource
    have total := storage.files.total_assign_add resource.count (.part creation.fileId)
      creation.size
    rw [weightAt_of_lookup present.1, count_part, count_part] at total
    rw [stage]
    exact total
  · refine ⟨?_, Nat.le_refl _⟩
    rw [OrderedDict.lookup_assign, if_pos rfl]

theorem Sound.dropPart :
    Sound policy { storage with
        files := storage.files.erase (.part creation.fileId)
        creation := some { creation with stage := .dropped } } := by
  have part := sound.part creation creating
  have total (resource : Resource) := storage.files.total_erase_add resource.count
    (.part creation.fileId)
  apply sound.restage creating
  · intro resource
    have total := total resource
    cases stage : creation.stage with
    | onDisk bytes =>
      rw [stage] at part
      rw [weightAt_of_lookup part.1, count_part] at total
      exact total
    | reserved | dropped =>
      rw [stage] at part
      rw [weightAt_of_absent part] at total
      exact total
  · change (storage.files.erase _).lookup _ = none
    rw [OrderedDict.lookup_erase, if_pos rfl]

end

theorem Sound.complete {fileId : FileId} {size : Nat} (idle : storage.creation = none)
    (present : storage.files.lookup (.part fileId) = some size) :
    Sound policy { storage with
        files := (storage.files.erase (.part fileId)).assign (.complete fileId) size } := by
  apply sound.refile idle
  intro resource
  have erased := storage.files.total_erase_add resource.count (.part fileId)
  have added := (storage.files.erase (.part fileId)).total_assign_add resource.count
    (.complete fileId) size
  rw [weightAt_of_lookup present, count_part] at erased
  rw [count_complete] at added
  omega

theorem Sound.remove (idle : storage.creation = none) (fileId : FileId) :
    Sound policy { storage with
        files := (storage.files.erase (.part fileId)).erase (.complete fileId) } := by
  apply sound.refile idle
  intro resource
  have first := storage.files.total_erase_add resource.count (.part fileId)
  have second := (storage.files.erase (.part fileId)).total_erase_add resource.count
    (.complete fileId)
  omega

theorem step_sound {event : StorageEvent}
    (taken : step policy isAlnum unicode storage event = some next) : Sound policy next := by
  cases event with
  | reserveUpload id request size disk =>
    simp only [step] at taken
    split at taken
    · cases taken
    rename_i free
    rw [not_or, Option.not_isSome_iff_eq_none] at free
    split at taken
    · cases taken
      exact sound
    rename_i held granted
    obtain ⟨fits, rfl⟩ := fits_of_reserve granted
    cases taken
    exact sound.rebooked (rebooked_reserve free.1 fits)
  | writeTemp id token =>
    simp only [step] at taken
    split at taken
    · rename_i upload found
      split at taken
      · rename_i fresh
        obtain ⟨name, size, temp, reserved⟩ := upload
        obtain ⟨_, rfl⟩ := fresh
        cases taken
        exact sound.rebooked (rebooked_assign found (some token) true rfl)
      · cases taken
    · cases taken
  | tempFails id =>
    simp only [step] at taken
    split at taken
    · rename_i upload found
      split at taken
      · rename_i fresh
        have erased := sound.rebooked (rebooked_erase found)
        rw [fresh.2, if_pos rfl] at erased
        cases taken
        exact erased
      · cases taken
    · cases taken
  | publish id suffixes linkFails disk =>
    simp only [step] at taken
    split at taken
    · rename_i upload found
      split at taken
      · rename_i ready
        cases taken
        exact sound.publish found ready.2 disk suffixes linkFails
      · cases taken
    · cases taken
  | discardTemp id =>
    simp only [step] at taken
    split at taken
    · rename_i upload found
      split at taken
      · cases taken
      rename_i done
      have erased := sound.rebooked (rebooked_erase found)
      rw [if_neg done] at erased
      cases taken
      exact erased
    · cases taken
  | reserveCreate fileId size disk =>
    simp only [step] at taken
    split at taken
    · cases taken
    rename_i free
    rw [not_or, not_or, Option.not_isSome_iff_eq_none, Option.not_isSome_iff_eq_none] at free
    split at taken
    · cases taken
      exact sound
    rename_i held granted
    obtain ⟨fits, rfl⟩ := fits_of_reserve granted
    cases taken
    exact sound.reserveCreate free.1 free.2.1 fits
  | openPart =>
    simp only [step] at taken
    split at taken
    · rename_i fileId size creating
      cases taken
      exact sound.openPart creating rfl
    · cases taken
  | sizePart =>
    simp only [step] at taken
    split at taken
    · rename_i fileId size bytes creating
      cases taken
      exact sound.sizePart creating rfl
    · cases taken
  | dropPart =>
    simp only [step] at taken
    split at taken
    · rename_i creation creating
      cases taken
      exact sound.dropPart creating
    · cases taken
  | finishCreate =>
    simp only [step] at taken
    split at taken
    · rename_i creation creating
      split at taken
      · rename_i done
        cases taken
        apply sound.finishCreate creating
        intro resource
        cases done with
        | inl whole => rw [whole]; exact Nat.le_refl _
        | inr dropped => rw [dropped]; exact Nat.zero_le _
      · cases taken
    · cases taken
  | complete fileId =>
    simp only [step] at taken
    split at taken
    · rename_i size idle present absent
      cases taken
      exact sound.complete idle present
    · cases taken
  | remove fileId =>
    simp only [step] at taken
    split at taken
    · cases taken
    rename_i idle
    rw [Option.not_isSome_iff_eq_none] at idle
    cases taken
    exact sound.remove idle fileId

end

end Machine

end XFerry.Storage
