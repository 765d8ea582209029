/-
The published files stay within the quotas, if the scan sees all of them.

The scan leaves out every file whose name starts like that of a temp file, and
sanitising lets a client choose such a name.
-/

import XFerry.Storage.Quota

namespace XFerry.Storage

open Encrypted (FileId)
open EventMachine Python List UploadStorageService

section Reservations

variable (policy : UploadStoragePolicy)

def PublishAccepted (storage : UploadStorageService) (event : StorageEvent) : Prop :=
  match event with
  | .publish id _ _ disk =>
    match storage.uploads.lookup id with
    | none => True
    | some upload =>
      upload.temp.isSome ∧ upload.reserved →
        storage.publishCheck policy disk upload = .ok () ∨
          storage.publishCheck policy disk upload = .error .freeSpace
  | _ => True

instance (storage : UploadStorageService) (event : StorageEvent) :
    Decidable (PublishAccepted policy storage event) := by
  unfold PublishAccepted
  split
  · split
    · exact isTrue trivial
    · infer_instance
  · exact isTrue trivial

/-- The partial file of a `create` is on the disk and its reservation is held. -/
def UploadStorageService.overlaps (storage : UploadStorageService) : Bool :=
  match storage.creation with
  | some { stage := .onDisk _, .. } => true
  | _ => false

/-- No upload is published during such an overlap. -/
def PublishApart (storage : UploadStorageService) (event : StorageEvent) : Prop :=
  match event with
  | .publish .. => storage.overlaps = false
  | _ => True

instance (storage : UploadStorageService) (event : StorageEvent) :
    Decidable (PublishApart storage event) := by
  unfold PublishApart
  split
  · infer_instance
  · exact isTrue trivial

variable {policy} {storage : UploadStorageService}

theorem overlap_eq_zero (apart : storage.overlaps = false)
    (resource : Resource) : storage.overlap resource = 0 := by
  unfold overlap
  unfold overlaps at apart
  cases creating : storage.creation with
  | none => rfl
  | some creation =>
    obtain ⟨fileId, size, stage⟩ := creation
    cases stage with
    | onDisk bytes =>
      rw [creating] at apart
      cases apart
    | reserved | dropped => rfl

theorem publishCheck_accepts (sound : Sound policy storage)
    (apart : storage.overlaps = false) (disk : Disk) (upload : Upload) :
    storage.publishCheck policy disk upload = .ok () ∨
      storage.publishCheck policy disk upload = .error .freeSpace := by
  apply checkAccepts_fits_iff.mp
  intro resource limit limited
  have within := sound.within resource limit limited
  rw [overlap_eq_zero apart] at within
  rw [reserved_release]
  change (storage.usage resource : Int) + _ + _ ≤ _
  omega

end Reservations

def sampleFileId : FileId := Encrypted.sampleManifest.fileId

def roomyDisk : Disk := { freeBytes := 1000, unallocatedEncryptedBytes := 0 }

def tenBytes : UploadStoragePolicy :=
  { maxTotalBytes := some 10, maxFileCount := none, reservedFreeBytes := 0 }

def fortyBytes : UploadStoragePolicy := { tenBytes with maxTotalBytes := some 40 }

def noSuffixes : Fin 63 → Text := fun _ => []

def separateEvents : List StorageEvent :=
  [ .reserveCreate sampleFileId 20 roomyDisk,
    .openPart,
    .sizePart,
    .finishCreate,
    .reserveUpload 0 (.basic ['a'] []) 4 roomyDisk,
    .writeTemp 0 [],
    .publish 0 noSuffixes false roomyDisk,
    .discardTemp 0 ]

/-- The same two with the upload in the middle of the `create`. -/
def overlappingEvents : List StorageEvent :=
  [ .reserveUpload 0 (.basic ['a'] []) 4 roomyDisk,
    .writeTemp 0 [],
    .reserveCreate sampleFileId 20 roomyDisk,
    .openPart,
    .sizePart,
    .publish 0 noSuffixes false roomyDisk,
    .discardTemp 0,
    .finishCreate ]

theorem underscore_not_mem : '_' ∉ uploadTempPrefix := by decide +kernel

theorem tempPrefix_of_append {start rest : Text} {char : Char} (other : char ∉ uploadTempPrefix)
    (begins : uploadTempPrefix <+: start ++ char :: rest) : uploadTempPrefix <+: start := by
  cases prefix_or_prefix_of_prefix begins (prefix_append start (char :: rest)) with
  | inl whole => exact whole
  | inr part =>
    obtain ⟨more, same⟩ := part
    rw [← same, prefix_append_right_inj] at begins
    cases more with
    | nil =>
      rw [append_nil] at same
      rw [same]
    | cons next more =>
      rw [cons_prefix_cons] at begins
      apply absurd _ other
      rw [← same, ← begins.1]
      exact mem_append_right _ (mem_cons_self ..)

theorem splitLastDot_eq {name stem ending : Text}
    (split : splitLastDot name = some (stem, ending)) :
    name = stem ++ '.' :: ending := by
  have whole := takeWhile_append_dropWhile (p := fun char : Char => char ≠ '.') (l := name.reverse)
  unfold splitLastDot at split
  cases dropped : name.reverse.dropWhile (· ≠ '.') with
  | nil =>
    rw [dropped] at split
    cases split
  | cons dot rest =>
    have isDot := head?_dropWhile_not (· ≠ '.') name.reverse
    rw [dropped] at split isDot whole
    cases split
    have same : dot = '.' := by simpa using isDot
    have reversed := congrArg reverse whole
    rw [reverse_append, reverse_cons, reverse_reverse, append_assoc, same] at reversed
    exact reversed.symm

theorem filenameWithUniqueSuffix_tempPrefix {name suffix : Text}
    (begins : uploadTempPrefix <+: filenameWithUniqueSuffix name suffix) :
    uploadTempPrefix <+: name := by
  unfold filenameWithUniqueSuffix at begins
  cases split : splitLastDot name with
  | none =>
    rw [split] at begins
    exact tempPrefix_of_append underscore_not_mem begins
  | some parts =>
    rw [split] at begins
    obtain ⟨stem, ending⟩ := parts
    have joined : uploadTempPrefix <+: stem ++ '_' :: (suffix ++ '.' :: ending) := by
      simpa using begins
    rw [splitLastDot_eq split]
    exact (tempPrefix_of_append underscore_not_mem joined).trans (prefix_append _ _)

/-! ### What is published -/

section Published

variable {policy : UploadStoragePolicy} {isAlnum : Alphanumeric} {unicode : Unicode}
  {storage next : UploadStorageService}

/-- The sanitised name of an upload does not look like a temp file. -/
def ProperlyNamed (isAlnum : Alphanumeric) (unicode : Unicode) (event : StorageEvent) : Prop :=
  match event with
  | .reserveUpload _ request _ _ =>
    uploadTempPrefix.isPrefixOf (request.safeFilename isAlnum unicode) = false
  | _ => True

instance (event : StorageEvent) : Decidable (ProperlyNamed isAlnum unicode event) := by
  unfold ProperlyNamed
  split
  · infer_instance
  · exact isTrue trivial

/-- No file, and no upload that may become one, looks like a temp file. -/
structure Visible (storage : UploadStorageService) : Prop where
  files : ∀ path size, storage.files.lookup path = some size → isServiceTempPath path = false
  uploads : ∀ id upload, storage.uploads.lookup id = some upload →
    uploadTempPrefix.isPrefixOf upload.name = false

section

variable (visible : Visible storage)
include visible

theorem Visible.assignUpload (id : Nat) {upload : Upload}
    (named : uploadTempPrefix.isPrefixOf upload.name = false) :
    ∀ other found, (storage.uploads.assign id upload).lookup other = some found →
      uploadTempPrefix.isPrefixOf found.name = false := by
  intro other found present
  rw [OrderedDict.lookup_assign] at present
  split at present
  · cases present
    exact named
  · exact visible.uploads other found present

theorem Visible.eraseUpload (id : Nat) :
    ∀ other found, (storage.uploads.erase id).lookup other = some found →
      uploadTempPrefix.isPrefixOf found.name = false := by
  intro other found present
  rw [OrderedDict.lookup_erase] at present
  split at present
  · cases present
  · exact visible.uploads other found present

theorem Visible.assignFile {path : StoredPath} {size : Nat}
    (seen : isServiceTempPath path = false) :
    ∀ other found, (storage.files.assign path size).lookup other = some found →
      isServiceTempPath other = false := by
  intro other found present
  rw [OrderedDict.lookup_assign] at present
  split at present
  · rename_i same
    rw [same]
    exact seen
  · exact visible.files other found present

theorem Visible.eraseFile (path : StoredPath) :
    ∀ other found, (storage.files.erase path).lookup other = some found →
      isServiceTempPath other = false := by
  intro other found present
  rw [OrderedDict.lookup_erase] at present
  split at present
  · cases present
  · exact visible.files other found present

end

theorem linkCandidates_visible {name : Text} {suffixes : Fin 63 → Text} {candidate : Text}
    (named : uploadTempPrefix.isPrefixOf name = false)
    (member : candidate ∈ linkCandidates name suffixes) :
    isServiceTempPath (.upload candidate) = false := by
  rw [Bool.eq_false_iff, ne_eq, isPrefixOf_iff_prefix] at named
  rw [isServiceTempPath, StoredPath.name, Bool.eq_false_iff, ne_eq, isPrefixOf_iff_prefix]
  cases mem_cons.mp member with
  | inl same =>
    rw [same]
    exact named
  | inr renamed =>
    obtain ⟨suffix, _, rfl⟩ := mem_map.mp renamed
    exact fun begins => named (filenameWithUniqueSuffix_tempPrefix begins)

theorem Visible.publish (visible : Visible storage) {id : Nat} {upload : Upload}
    (found : storage.uploads.lookup id = some upload) (disk : Disk) (suffixes : Fin 63 → Text)
    (linkFails : Bool) :
    Visible (storage.publish policy disk id upload suffixes linkFails) := by
  have named := visible.uploads id upload found
  have uploads : ∀ other found,
      (storage.uploads.assign id { upload with reserved := false }).lookup other = some found →
        uploadTempPrefix.isPrefixOf found.name = false := visible.assignUpload id named
  unfold UploadStorageService.publish
  split
  · exact ⟨visible.files, uploads⟩
  split
  · exact ⟨visible.files, uploads⟩
  split
  · exact ⟨visible.files, uploads⟩
  rename_i name chosen
  have seen := linkCandidates_visible named (mem_of_find?_eq_some chosen)
  exact ⟨visible.assignFile seen, uploads⟩

theorem isServiceTempPath_part (fileId : Encrypted.FileId) :
    isServiceTempPath (.part fileId) = false := isServiceTempPath_fileId fileId _

theorem isServiceTempPath_complete (fileId : Encrypted.FileId) :
    isServiceTempPath (.complete fileId) = false := isServiceTempPath_fileId fileId _

theorem step_visible {event : StorageEvent} (visible : Visible storage)
    (named : ProperlyNamed isAlnum unicode event)
    (taken : step policy isAlnum unicode storage event = some next) : Visible next := by
  cases event with
  | reserveUpload id request size disk =>
    simp only [step] at taken
    split at taken
    · cases taken
    split at taken
    · cases taken
      exact visible
    rename_i held granted
    obtain ⟨_, rfl⟩ := fits_of_reserve granted
    cases taken
    exact ⟨visible.files, visible.assignUpload id named⟩
  | writeTemp id token =>
    simp only [step] at taken
    split at taken
    · rename_i upload found
      split at taken
      · cases taken
        exact ⟨visible.files, visible.assignUpload id (visible.uploads id upload found)⟩
      · cases taken
    · cases taken
  | tempFails id =>
    simp only [step] at taken
    split at taken
    · split at taken
      · cases taken
        exact ⟨visible.files, visible.eraseUpload id⟩
      · cases taken
    · cases taken
  | publish id suffixes linkFails disk =>
    simp only [step] at taken
    split at taken
    · rename_i upload found
      split at taken
      · cases taken
        exact visible.publish found disk suffixes linkFails
      · cases taken
    · cases taken
  | discardTemp id =>
    simp only [step] at taken
    split at taken
    · split at taken
      · cases taken
      · cases taken
        exact ⟨visible.files, visible.eraseUpload id⟩
    · cases taken
  | reserveCreate fileId size disk =>
    simp only [step] at taken
    split at taken
    · cases taken
    split at taken
    · cases taken
      exact visible
    rename_i held granted
    obtain ⟨_, rfl⟩ := fits_of_reserve granted
    cases taken
    exact ⟨visible.files, visible.uploads⟩
  | openPart | sizePart =>
    simp only [step] at taken
    split at taken
    · cases taken
      exact ⟨visible.assignFile (isServiceTempPath_part _), visible.uploads⟩
    · cases taken
  | dropPart =>
    simp only [step] at taken
    split at taken
    · cases taken
      exact ⟨visible.eraseFile _, visible.uploads⟩
    · cases taken
  | finishCreate =>
    simp only [step] at taken
    split at taken
    · split at taken
      · cases taken
        exact ⟨visible.files, visible.uploads⟩
      · cases taken
    · cases taken
  | complete fileId =>
    simp only [step] at taken
    split at taken
    · cases taken
      have erased : Visible { storage with files := storage.files.erase (.part fileId) } :=
        ⟨visible.eraseFile _, visible.uploads⟩
      exact ⟨erased.assignFile (isServiceTempPath_complete fileId), visible.uploads⟩
    · cases taken
  | remove fileId =>
    simp only [step] at taken
    split at taken
    · cases taken
    · cases taken
      have erased : Visible { storage with files := storage.files.erase (.part fileId) } :=
        ⟨visible.eraseFile _, visible.uploads⟩
      exact ⟨erased.eraseFile _, visible.uploads⟩

theorem Sound.usage_le (sound : Sound policy storage) (resource : Resource) {limit : Nat}
    (limited : policy.limit resource = some limit) : storage.usage resource ≤ limit := by
  have within := sound.within resource limit limited
  have reserved := sound.reserved resource
  have overlap : storage.overlap resource ≤ storage.promised resource := by
    unfold overlap promised
    cases creating : storage.creation with
    | none => exact Nat.zero_le _
    | some creation =>
      have part := sound.part creation creating
      apply Nat.le_trans _ (Nat.le_add_left _ _)
      change creation.stage.onDiskWeight resource ≤ resource.weigh creation.size
      cases stage : creation.stage with
      | onDisk bytes =>
        rw [stage] at part
        exact resource.weigh_le part.2
      | reserved | dropped => exact Nat.zero_le _
  omega

/-- The scan counts every published file. -/
def EveryFileCounted (storage : UploadStorageService) : Prop :=
  (currentUsage storage.directory).totalBytes = (storage.files.entries.map Prod.snd).sum ∧
    (currentUsage storage.directory).fileCount = storage.files.size

theorem Visible.everyFileCounted (visible : Visible storage) : EveryFileCounted storage := by
  have counted (resource : Resource) : storage.usage resource =
      (storage.files.entries.map fun file => resource.weigh file.2).sum := by
    apply congrArg sum
    apply map_congr_left
    intro file member
    have seen := visible.files file.1 file.2 (OrderedDict.lookup_eq_some.mpr member)
    rw [Resource.count, seen, if_neg Bool.false_ne_true]
  rw [EveryFileCounted, currentUsage_totalBytes, currentUsage_fileCount, counted, counted]
  simp [Resource.weigh, OrderedDict.size]

/-- Every published file is counted and all of them are within the limits. -/
structure QuotaKept (policy : UploadStoragePolicy) (storage : UploadStorageService) : Prop where
  counted : EveryFileCounted storage
  bytes : ∀ limit, policy.maxTotalBytes = some limit →
    (storage.files.entries.map Prod.snd).sum ≤ limit
  files : ∀ limit, policy.maxFileCount = some limit → storage.files.size ≤ limit

end Published

def uploadOfTenBytes (filename : Text) : List StorageEvent :=
  [ .reserveUpload 0 (.basic filename []) 10 roomyDisk,
    .writeTemp 0 [],
    .publish 0 noSuffixes false roomyDisk,
    .discardTemp 0 ]

end XFerry.Storage
