/-
The Basic upload of one file, from the name that the client gives to the file that is
there afterwards.

The upload directory is resolved, so that no link stands on the way to it.  Calls to the
file system succeed, except that no name has more than 255 bytes.
-/

import XFerry.Python.TextLemmas
import XFerry.Server.StoredFiles
import XFerry.Storage.PlainPublication

namespace XFerry.Storage

open Python Function List
open Server (FilePath pathParts)

/-- `path.parent`: the parent of the root is the root. -/
def parentOf (path : FilePath) : FilePath := { path with parts := path.parts.dropLast }

/-- `path.name`. -/
def nameOf (path : FilePath) : Text := path.parts.getLast?.getD []

/-- `directory / name`, for a name without a separator that is not a dot. -/
def child (directory : FilePath) (name : Text) : FilePath :=
  { directory with parts := directory.parts ++ [name] }

def byteLength (name : Text) : Nat := (name.map Char.utf8Size).sum

def maxNameBytes : Nat := 255

structure MultipartFile where
  filename : Text
  payload : Bytes

/-- What `_handle_basic_upload` works on: `part` is what the parser of a multipart body
returns, which can be a `MultipartError`. -/
inductive UploadBody where
  | raw (payload : Bytes)
  | multipart (part : Option MultipartFile)

structure BasicUpload where
  /-- `X-File-Name`, or nothing. -/
  headerFilename : Text
  path : Text
  body : UploadBody

/-- What the call draws: the time, and the tokens of temp names and of suffixes. -/
structure UploadDraws where
  unquote : Text → Text
  timestamp : Text
  tempToken : Nat → Text
  suffix : Nat → Text
  timestamp_plain : '/' ∉ timestamp
  suffix_hexadecimal : ∀ attempt, '.' ∉ suffix attempt

def basicUploadCollectionPaths : List Text :=
  ["/", "/upload", "/api", "/file"].map String.toList

def basicUrlFilename (path : Text) (isMultipart : Bool) : Option Text :=
  if path ∈ basicUploadCollectionPaths then none
  else if isMultipart = true ∧ (path.reverse.dropWhile (· = '/')).reverse = "/uploads".toList then
    none
  else
    let pathName := trim (· = '/') path
    if pathName = [] then none else some ((pathParts pathName).getLast?.getD [])

def BasicUpload.filename (upload : BasicUpload) (draws : UploadDraws) : Text :=
  let generated := "upload_".toList ++ draws.timestamp
  if upload.headerFilename ≠ [] then draws.unquote upload.headerFilename
  else
    match upload.body with
    | .raw _ => (basicUrlFilename upload.path false).getD generated
    | .multipart part =>
      let partFilename := (part.map MultipartFile.filename).getD []
      if partFilename ≠ [] then partFilename
      else (basicUrlFilename upload.path true).getD generated

def BasicUpload.payload (upload : BasicUpload) : Option Bytes :=
  match upload.body with
  | .raw payload => some payload
  | .multipart part => part.map MultipartFile.payload

inductive UploadFault where
  | valueError
  | quota
  | fileExists
  | osError
deriving DecidableEq

/-- The files of the upload directory, by their names. -/
abbrev Entries := Text → Option DirectoryEntry

section FirstFree

variable (fits : Text → Bool) (entries : Entries)

/-- A loop over names that goes on while they are taken. -/
def firstFree : Nat → (Nat → Text) → Except UploadFault Text
  | 0, _ => .error .fileExists
  | left + 1, names =>
    if fits (names 0) = false then .error .osError
    else if entries (names 0) ≠ none then firstFree left fun attempt => names (attempt + 1)
    else .ok (names 0)

/-- The name is free, and the names before it are taken; none is too long. -/
structure IsFirstFree (names : Nat → Text) (attempts attempt : Nat) : Prop where
  inTime : attempt < attempts
  free : entries (names attempt) = none
  taken : ∀ earlier < attempt, entries (names earlier) ≠ none
  fit : ∀ earlier ≤ attempt, fits (names earlier) = true

variable {fits entries}

theorem firstFree_eq_ok {attempts : Nat} {names : Nat → Text} {name : Text} :
    firstFree fits entries attempts names = .ok name ↔
      ∃ attempt, IsFirstFree fits entries names attempts attempt ∧ names attempt = name := by
  induction attempts generalizing names with
  | zero =>
    exact iff_of_false nofun fun ⟨_, isFirst, _⟩ => absurd isFirst.inTime (Nat.not_lt_zero _)
  | succ attempts ih =>
    unfold firstFree
    by_cases short : fits (names 0) = true
    · rw [if_neg (by rw [short]; exact nofun)]
      by_cases free : entries (names 0) = none
      · rw [if_neg (not_not.mpr free), Except.ok.injEq]
        constructor
        · intro same
          refine ⟨0, ⟨Nat.succ_pos _, free, nofun, fun earlier within => ?_⟩, same⟩
          rw [Nat.le_zero.mp within]
          exact short
        · rintro ⟨attempt, isFirst, same⟩
          cases attempt with
          | zero => exact same
          | succ attempt => exact absurd free (isFirst.taken 0 (Nat.succ_pos _))
      · rw [if_pos free, ih]
        constructor
        · rintro ⟨attempt, isFirst, same⟩
          refine ⟨attempt + 1, ⟨Nat.succ_lt_succ isFirst.inTime, isFirst.free, ?_, ?_⟩, same⟩
          · intro earlier before
            cases earlier with
            | zero => exact free
            | succ earlier => exact isFirst.taken earlier (Nat.lt_of_succ_lt_succ before)
          · intro earlier within
            cases earlier with
            | zero => exact short
            | succ earlier => exact isFirst.fit earlier (Nat.le_of_succ_le_succ within)
        · rintro ⟨attempt, isFirst, same⟩
          cases attempt with
          | zero => exact absurd isFirst.free free
          | succ attempt =>
            exact ⟨attempt,
              { inTime := Nat.lt_of_succ_lt_succ isFirst.inTime
                free := isFirst.free
                taken := fun earlier before => isFirst.taken _ (Nat.succ_lt_succ before)
                fit := fun earlier within => isFirst.fit _ (Nat.succ_le_succ within) }, same⟩
    · rw [Bool.not_eq_true] at short
      rw [if_pos short]
      refine iff_of_false nofun ?_
      rintro ⟨attempt, isFirst, _⟩
      exact Bool.false_ne_true (short.symm.trans (isFirst.fit 0 (Nat.zero_le _)))

end FirstFree

/-- The names that `_link_unique_temp` tries. -/
def candidate (draws : UploadDraws) (name : Text) : Nat → Text
  | 0 => name
  | attempt + 1 => filenameWithUniqueSuffix name (draws.suffix attempt)

def linkable (name : Text) : Bool := byteLength name ≤ maxNameBytes

def linkAttempts : Nat := 64

/-- `denies` is the answer of `_check_accepts` to a `require_free_for_size`. -/
structure UploadSite where
  uploadDir : FilePath
  entries : Entries
  denies : Bool → Bool

variable (site : UploadSite) (draws : UploadDraws)

def tempOf (draws : UploadDraws) (attempt : Nat) : Text := tempName (draws.tempToken attempt)

def UploadSite.withTemp (site : UploadSite) (temp : Text) (data : Bytes) : Entries :=
  update site.entries temp (some (.file data))

/-- `publish_bytes`, with the path that it returns and what the directory holds then. -/
def publishBytes (path : FilePath) (data : Bytes) : Except UploadFault (FilePath × Entries) :=
  if parentOf path ≠ site.uploadDir then .error .valueError
  else if site.denies true = true then .error .quota
  else do
    let temp ← firstFree (fun _ => true) site.entries tempAttempts (tempOf draws)
    if site.denies false = true then .error .quota
    else do
      let name ← firstFree linkable (site.withTemp temp data) linkAttempts
        (candidate draws (nameOf path))
      .ok (child (parentOf path) name,
        update (update (site.withTemp temp data) name (some (.file data))) temp none)

inductive BasicResponse where
  /-- 400. -/
  | invalidField
  | emptyPayload
  /-- 201. -/
  | created (path : FilePath)
  /-- 507. -/
  | quotaExceeded
  /-- 500. -/
  | failed

variable (isAlnum : Alphanumeric) (unicode : Unicode)

def BasicUpload.safeFilename (upload : BasicUpload) : Text :=
  sanitizeFilename isAlnum unicode (upload.filename draws) draws.timestamp

/-- `_handle_basic_upload`.  What fails leaves the directory as it was. -/
def handleBasicUpload (upload : BasicUpload) : BasicResponse × Entries :=
  match upload.payload with
  | none => (.invalidField, site.entries)
  | some [] => (.emptyPayload, site.entries)
  | some (byte :: rest) =>
    let path := site.uploadDir.join (upload.safeFilename draws isAlnum unicode)
    match publishBytes site draws path (byte :: rest) with
    | .ok (path, entries) => (.created path, entries)
    | .error .quota => (.quotaExceeded, site.entries)
    | .error _ => (.failed, site.entries)

/-- The payload is a new file of the directory, under the name or a variant of it, and
nothing else has changed. -/
def StoredAs (name : Text) (data : Bytes) (outcome : BasicResponse × Entries) : Prop :=
  ∃ attempt, site.entries (candidate draws name attempt) = none ∧
    outcome.1 = .created (child site.uploadDir (candidate draws name attempt)) ∧
    outcome.2 = update site.entries (candidate draws name attempt) (some (.file data))

/-- A temp name is free, and then the name or one of its variants. -/
def FindsName (name : Text) (data : Bytes) : Prop :=
  ∃ tempAttempt, IsFirstFree (fun _ => true) site.entries (tempOf draws) tempAttempts tempAttempt ∧
    ∃ attempt, IsFirstFree linkable (site.withTemp (tempOf draws tempAttempt) data)
      (candidate draws name) linkAttempts attempt

variable {site draws isAlnum unicode}

theorem mem_of_mem_replaceDots {char : Char} {text : Text} (member : char ∈ replaceDots text) :
    char ∈ text := by
  fun_induction replaceDots text with
  | case1 rest ih =>
    rcases mem_cons.mp member with rfl | later
    · exact mem_cons_self
    · exact mem_cons_of_mem _ (mem_cons_of_mem _ (ih later))
  | case2 first rest _ ih =>
    rcases mem_cons.mp member with rfl | later
    · exact mem_cons_self
    · exact mem_cons_of_mem _ (ih later)
  | case3 => exact member

theorem mem_of_mem_collapseDots {char : Char} {text : Text}
    (member : char ∈ collapseDots text) : char ∈ text := by
  have each (passes : Nat) : char ∈ replaceDots^[passes] text → char ∈ text := by
    induction passes with
    | zero => exact id
    | succ passes ih =>
      intro inside
      rw [iterate_succ_apply'] at inside
      exact ih (mem_of_mem_replaceDots inside)
  exact each _ member

theorem sanitizeFilename_component (slash : isAlnum '/' = false) (filename : Text)
    {timestamp : Text} (plain : '/' ∉ timestamp) :
    sanitizeFilename isAlnum unicode filename timestamp ≠ [] ∧
      '/' ∉ sanitizeFilename isAlnum unicode filename timestamp := by
  unfold sanitizeFilename
  dsimp only
  split
  · refine ⟨append_ne_nil_of_left_ne_nil (by decide) _, ?_⟩
    rw [mem_append, not_or]
    exact ⟨by decide, plain⟩
  rename_i nonempty
  refine ⟨fun empty => nonempty (isEmpty_iff.mpr empty), fun member => ?_⟩
  obtain ⟨before, after, whole, _⟩ := trim_split unicode.isSpace
    (collapseDots (filename.filter (isSafeChar isAlnum)))
  have inside : '/' ∈ collapseDots (filename.filter (isSafeChar isAlnum)) := by
    rw [whole]
    exact mem_append_left _ (mem_append_right _ member)
  have safe := (mem_filter.mp (mem_of_mem_collapseDots inside)).2
  rw [isSafeChar, slash] at safe
  exact absurd safe (by decide)

theorem join_component (directory : FilePath) {name : Text} (nonempty : name ≠ [])
    (plain : '/' ∉ name) :
    directory.join name = if name = ['.'] then directory else child directory name := by
  have relative : (name.takeWhile (· = '/')).length = 0 := by
    cases name with
    | nil => rfl
    | cons first rest =>
      have other : first ≠ '/' := fun same => plain (same ▸ mem_cons_self)
      rw [takeWhile_cons_of_neg (by simpa using other)]
      rfl
  rw [FilePath.join, relative]
  change { directory with parts := directory.parts ++ pathParts name } = _
  rw [pathParts, splitOn_eq_singleton plain]
  split
  · case isTrue isDot =>
    rw [isDot]
    exact congrArg (fun parts => { directory with parts := parts }) (append_nil _)
  rename_i notDot
  have kept : [name].filter (fun part => part ≠ [] ∧ part ≠ ['.']) = [name] := by
    simp [nonempty, notDot]
  rw [kept]
  rfl

variable {data : Bytes} {name : Text} {path : FilePath} {upload : BasicUpload}

theorem entries_published {temp : Text} (tempFree : site.entries temp = none)
    (free : site.withTemp temp data name = none) :
    site.entries name = none ∧
      update (update (site.withTemp temp data) name (some (.file data))) temp none =
        update site.entries name (some (.file data)) := by
  have different : name ≠ temp := by
    rintro rfl
    rw [UploadSite.withTemp, update_self] at free
    cases free
  rw [UploadSite.withTemp, update_of_ne different] at free
  refine ⟨free, ?_⟩
  rw [update_comm different, UploadSite.withTemp, update_idem, ← tempFree, update_eq_self]

theorem publishBytes_eq_ok (admitted : ∀ check, site.denies check = false)
    {published : FilePath × Entries} :
    publishBytes site draws path data = .ok published ↔ parentOf path = site.uploadDir ∧
      ∃ tempAttempt, IsFirstFree (fun _ => true) site.entries (tempOf draws) tempAttempts
          tempAttempt ∧
        ∃ attempt, IsFirstFree linkable (site.withTemp (tempOf draws tempAttempt) data)
            (candidate draws (nameOf path)) linkAttempts attempt ∧
          published = (child site.uploadDir (candidate draws (nameOf path) attempt),
            update site.entries (candidate draws (nameOf path) attempt) (some (.file data))) := by
  unfold publishBytes
  by_cases inside : parentOf path = site.uploadDir
  · rw [if_neg (not_not.mpr inside), admitted, admitted, if_neg nofun, Ensures.bind_eq_ok,
      and_iff_right inside]
    constructor
    · rintro ⟨temp, tempFound, rest⟩
      obtain ⟨found, linked, same⟩ := Ensures.bind_eq_ok.mp rest
      obtain ⟨tempAttempt, tempFirst, rfl⟩ := firstFree_eq_ok.mp tempFound
      obtain ⟨attempt, isFirst, rfl⟩ := firstFree_eq_ok.mp linked
      refine ⟨tempAttempt, tempFirst, attempt, isFirst, ?_⟩
      rw [← Except.ok.inj same, (entries_published tempFirst.free isFirst.free).2, inside]
    · rintro ⟨tempAttempt, tempFirst, attempt, isFirst, rfl⟩
      refine ⟨_, firstFree_eq_ok.mpr ⟨tempAttempt, tempFirst, rfl⟩, ?_⟩
      refine Ensures.bind_eq (firstFree_eq_ok.mpr ⟨attempt, isFirst, rfl⟩) ?_
      rw [(entries_published tempFirst.free isFirst.free).2, inside]
  · rw [if_pos inside]
    exact iff_of_false nofun fun both => inside both.1

theorem dot_mem_candidate (attempt : Nat) : '.' ∈ candidate draws ['.'] attempt := by
  cases attempt with
  | zero => exact mem_cons_self
  | succ attempt =>
    exact mem_append_right _ mem_cons_self

theorem dot_not_mem_candidate (attempt : Nat) : '.' ∉ candidate draws [] attempt := by
  cases attempt with
  | zero => exact not_mem_nil
  | succ attempt =>
    change '.' ∉ '_' :: draws.suffix attempt
    rw [mem_cons, not_or]
    exact ⟨by decide, draws.suffix_hexadecimal attempt⟩

/-- The upload directory itself is no direct child of it, unless it is the root, whose
children then are no variants of a dot. -/
theorem not_storedAs_dot (admitted : ∀ check, site.denies check = false)
    (published : publishBytes site draws site.uploadDir data = .ok (path, entries))
    (attempt : Nat) :
    path ≠ child site.uploadDir (candidate draws ['.'] attempt) := by
  obtain ⟨isParent, tempAttempt, _, found, _, same⟩ := (publishBytes_eq_ok admitted).mp published
  cases same
  intro same
  have parts : site.uploadDir.parts = [] := by
    have shorter := congrArg (fun path => path.parts.length) isParent
    rw [parentOf, length_dropLast] at shorter
    exact length_eq_zero_iff.mp (by omega)
  have names := (append_cancel_left (congrArg FilePath.parts same))
  rw [nameOf, parts] at names
  have spelled : candidate draws [] found = candidate draws ['.'] attempt := (cons.inj names).1
  exact dot_not_mem_candidate found (spelled ▸ dot_mem_candidate attempt)

/-- A Basic upload is stored under its sanitised name, or under a variant of it, exactly
where that name is not a lone dot and a free name is found. -/
theorem basicUpload_stored_iff (slash : isAlnum '/' = false)
    (admitted : ∀ check, site.denies check = false) (payload : upload.payload = some data)
    (nonempty : data ≠ []) :
    StoredAs site draws (upload.safeFilename draws isAlnum unicode) data
        (handleBasicUpload site draws isAlnum unicode upload) ↔
      upload.safeFilename draws isAlnum unicode ≠ ['.'] ∧
        FindsName site draws (upload.safeFilename draws isAlnum unicode) data := by
  have component : upload.safeFilename draws isAlnum unicode ≠ [] ∧
      '/' ∉ upload.safeFilename draws isAlnum unicode :=
    sanitizeFilename_component slash _ draws.timestamp_plain
  unfold handleBasicUpload
  generalize upload.safeFilename draws isAlnum unicode = name at component ⊢
  rw [payload, join_component site.uploadDir component.1 component.2]
  cases data with
  | nil => exact absurd rfl nonempty
  | cons byte rest =>
    dsimp only
    by_cases isDot : name = ['.']
    · rw [isDot, if_pos rfl]
      refine iff_of_false ?_ fun both => both.1 rfl
      rintro ⟨attempt, _, created, _⟩
      cases published : publishBytes site draws site.uploadDir (byte :: rest) with
      | error fault =>
        rw [published] at created
        cases fault <;> cases created
      | ok outcome =>
        rw [published] at created
        exact not_storedAs_dot admitted published attempt (BasicResponse.created.inj created)
    · rw [if_neg isDot, and_iff_right isDot]
      have isParent : parentOf (child site.uploadDir name) = site.uploadDir := by
        rw [parentOf, child, dropLast_concat]
      have isName : nameOf (child site.uploadDir name) = name := by
        rw [nameOf, child, getLast?_concat]
        rfl
      constructor
      · rintro ⟨attempt, _, created, _⟩
        cases published : publishBytes site draws (child site.uploadDir name) (byte :: rest) with
        | error fault =>
          rw [published] at created
          cases fault <;> cases created
        | ok outcome =>
          obtain ⟨_, tempAttempt, tempFirst, found, isFirst, _⟩ :=
            (publishBytes_eq_ok admitted).mp published
          rw [isName] at isFirst
          exact ⟨tempAttempt, tempFirst, found, isFirst⟩
      · rintro ⟨tempAttempt, tempFirst, attempt, isFirst⟩
        have published := (publishBytes_eq_ok admitted).mpr
          ⟨isParent, tempAttempt, tempFirst, attempt, isName.symm ▸ isFirst, rfl⟩
        rw [published, isName]
        exact ⟨attempt, (entries_published tempFirst.free isFirst.free).1, rfl, rfl⟩

def emptySite : UploadSite :=
  { uploadDir := { root := "/".toList, parts := ["srv", "files"].map String.toList }
    entries := fun _ => none
    denies := fun _ => false }

def plainDraws : UploadDraws :=
  { unquote := id
    timestamp := "20260101_000000".toList
    tempToken := fun _ => "00".toList
    suffix := fun _ => "00".toList
    timestamp_plain := by decide
    suffix_hexadecimal := fun _ => by decide }

def namedUpload (name : String) : BasicUpload :=
  { headerFilename := name.toList, path := "/".toList, body := .raw [1] }

theorem namedUpload_stored :
    StoredAs emptySite plainDraws
      ((namedUpload "a.txt").safeFilename plainDraws Char.isAlphanum Unicode.ascii) [1]
      (handleBasicUpload emptySite plainDraws Char.isAlphanum Unicode.ascii
        (namedUpload "a.txt")) := by
  refine (basicUpload_stored_iff (by decide) (fun _ => rfl) rfl (cons_ne_nil _ _)).mpr
    ⟨by decide, 0, ⟨by decide, rfl, nofun, fun _ _ => rfl⟩, 0, ?_⟩
  refine ⟨by decide, rfl, nofun, fun earlier within => ?_⟩
  rw [Nat.le_zero.mp within]
  decide

theorem dotsUpload_fails :
    byteLength ((namedUpload "..").safeFilename plainDraws Char.isAlphanum Unicode.ascii) ≤
        maxNameBytes ∧
      ¬ StoredAs emptySite plainDraws
        ((namedUpload "..").safeFilename plainDraws Char.isAlphanum Unicode.ascii) [1]
        (handleBasicUpload emptySite plainDraws Char.isAlphanum Unicode.ascii
          (namedUpload "..")) := by
  refine ⟨by decide, ?_⟩
  rintro ⟨attempt, _, created, _⟩
  cases created

end XFerry.Storage
