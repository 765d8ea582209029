/-
Bounded inspection of a file for INFO.

The operating system and the ZIP probe of the standard library answer as they like, with the
exceptions that are documented of them.  Only indexing a byte can fail in the probes: a slice
of Python takes what is there.
-/

import XFerry.Python.Text

namespace XFerry.Inspection

open Python

abbrev Str := List Nat

def str (text : String) : Str := text.toList.map Char.toNat

/-- A bytes literal. -/
def latin (text : String) : Bytes := text.toList.map fun char => UInt8.ofNat char.toNat

def slice (data : Bytes) (start stop : Nat) : Bytes := (data.take stop).drop start

def startsWith (head : Bytes) (magics : List String) : Bool :=
  magics.any fun magic => (latin magic).isPrefixOf head

inductive InspectionError where
  | osError
  | valueError
  | badZipFile
  | indexError
deriving DecidableEq

/-- `data[position]`. -/
def byteAt (data : Bytes) (position : Nat) : Except InspectionError Nat :=
  match data[position]? with
  | some byte => .ok byte.toNat
  | none => .error .indexError

def fromBytes (bigEndian : Bool) (data : Bytes) : Nat :=
  (if bigEndian = true then data else data.reverse).foldl
    (fun value byte => value * 256 + byte.toNat) 0

/-- `data.find(pattern)` from a position on. -/
def findFrom (pattern : Bytes) (position : Nat) : Bytes → Option Nat
  | [] => none
  | byte :: rest =>
    if pattern.isPrefixOf (byte :: rest) = true then some position
    else findFrom pattern (position + 1) rest

/-- What the interpreter knows about text and about file names. -/
structure Tables where
  lower : Str → Str
  isPrintable : Char → Bool
  isSpace : Char → Bool
  /-- `mimetypes.guess_type(name, strict=False)[0]` -/
  guessType : Str → Option String

variable (tables : Tables)

def isPe (head : Bytes) : Bool :=
  if head.length < 64 ∨ startsWith head ["MZ"] = false then false
  else
    let peOffset := fromBytes false (slice head 60 64)
    decide (64 ≤ peOffset ∧ slice head peOffset (peOffset + 4) = latin "PE\x00\x00")

def knownCpuTypes : List Nat :=
  [1, 6, 7, 8, 10, 11, 12, 14, 15, 18, 0x01000007, 0x0100000C, 0x0200000C]

def isMachFat (head : Bytes) : Bool :=
  let bigEndian := startsWith head ["\xca\xfe\xba\xbe"]
  if bigEndian = false ∧ startsWith head ["\xbe\xba\xfe\xca"] = false then false
  else if head.length < 8 then false
  else
    let architectureCount := fromBytes bigEndian (slice head 4 8)
    let architectureTableEnd := 8 + architectureCount * 20
    if ¬ (1 ≤ architectureCount ∧ architectureCount ≤ 64) ∨
        head.length < architectureTableEnd then false
    else
      (List.range architectureCount).all fun index =>
        let offset := 8 + index * 20
        let cpuType := fromBytes bigEndian (slice head offset (offset + 4))
        let sliceOffset := fromBytes bigEndian (slice head (offset + 8) (offset + 12))
        let sliceSize := fromBytes bigEndian (slice head (offset + 12) (offset + 16))
        let alignment := fromBytes bigEndian (slice head (offset + 16) (offset + 20))
        decide (cpuType ∈ knownCpuTypes ∧ architectureTableEnd ≤ sliceOffset ∧ sliceSize ≠ 0 ∧
          alignment ≤ 63)

/-- The loop over `width` and `marker`, which ends after eight rounds. -/
def findMarker (firstSizeByte : Nat) : Nat → Nat → Nat → Nat × Nat
  | 0, width, marker => (width, marker)
  | rounds + 1, width, marker =>
    if width ≤ 8 ∧ firstSizeByte &&& marker = 0 then
      findMarker firstSizeByte rounds (width + 1) (marker >>> 1)
    else (width, marker)

/-- The value of the element whose size starts at a position with the given byte. -/
def ebmlValue (head : Bytes) (sizeOffset firstSizeByte : Nat) : Option Bytes :=
  let (width, marker) := findMarker firstSizeByte 8 1 0x80
  if 8 < width ∨ head.length < sizeOffset + width then none
  else
    let size := (slice head (sizeOffset + 1) (sizeOffset + width)).foldl
      (fun size value => (size <<< 8) ||| value.toNat) (firstSizeByte &&& (marker - 1))
    let valueOffset := sizeOffset + width
    if 32 < size ∨ head.length < valueOffset + size then none
    else some (slice head valueOffset (valueOffset + size))

def ebmlDocType (head : Bytes) : Except InspectionError (Option Bytes) :=
  match findFrom (latin "\x42\x82") 0 head with
  | none => .ok none
  | some elementOffset =>
    if head.length < elementOffset + 3 then .ok none
    else (byteAt head (elementOffset + 2)).map (ebmlValue head (elementOffset + 2))

def utf16Units (bigEndian : Bool) : Bytes → Option (List Nat)
  | [] => some []
  | [_] => none
  | first :: second :: rest =>
    (utf16Units bigEndian rest).map (fromBytes bigEndian [first, second] :: ·)

def arePaired : List Nat → Bool
  | [] => true
  | unit :: rest =>
    if 0xD800 ≤ unit ∧ unit ≤ 0xDBFF then
      match rest with
      | low :: tail => decide (0xDC00 ≤ low ∧ low ≤ 0xDFFF) && arePaired tail
      | [] => false
    else !decide (0xDC00 ≤ unit ∧ unit ≤ 0xDFFF) && arePaired rest

/-- `data.decode("utf-16")` succeeds, where the data begin with a byte order mark. -/
def decodesUtf16 (data : Bytes) : Bool :=
  match utf16Units (startsWith data ["\xfe\xff"]) (data.drop 2) with
  | some units => arePaired units
  | none => false

/-- `data.decode("utf-8-sig")`. -/
def decodeUtf8Sig (data : Bytes) : Option Text :=
  Python.decode (if startsWith data ["\xef\xbb\xbf"] = true then data.drop 3 else data)

/-- At least 85 of 100 characters are printable or space. -/
def isText (head : Bytes) : Bool :=
  if head.length < 16 then false
  else if startsWith head ["\xff\xfe", "\xfe\xff"] = true then decodesUtf16 head
  else
    match decodeUtf8Sig head with
    | none => false
    | some decoded =>
      let printable := decoded.countP fun char => tables.isPrintable char || tables.isSpace char
      decide ('\x00' ∉ decoded ∧ decoded ≠ [] ∧ 17 * decoded.length ≤ 20 * printable)

def mp4Brands : List String :=
  ["3g2a", "3gp4", "3gp5", "M4V ", "MSNV", "avc1", "dash", "iso2", "iso3", "iso4", "iso5", "iso6",
    "isom", "mp41", "mp42"]

def isRiff (head : Bytes) (form : String) : Bool :=
  decide (12 ≤ head.length) && startsWith head ["RIFF"] && decide (slice head 8 12 = latin form)

def hasBrand (head : Bytes) (brands : List String) : Bool :=
  decide (12 ≤ head.length ∧ slice head 4 8 = latin "ftyp") &&
    brands.any fun brand => decide (slice head 8 12 = latin brand)

/-- The signatures that `_signature_mime` looks for first. -/
def earlySignatures (head : Bytes) : List (Bool × String) :=
  [(startsWith head ["%PDF-"], "application/pdf"),
    (startsWith head ["\x89PNG\r\n\x1a\n"], "image/png"),
    (startsWith head ["\xff\xd8\xff"], "image/jpeg"),
    (startsWith head ["GIF87a", "GIF89a"], "image/gif"),
    (isRiff head "WEBP", "image/webp"),
    (startsWith head ["BM"], "image/bmp"),
    (startsWith head ["II*\x00", "MM\x00*"], "image/tiff"),
    (startsWith head ["\x00\x00\x01\x00"], "image/x-icon"),
    (startsWith head ["\x1f\x8b\x08"], "application/gzip"),
    (startsWith head ["BZh"], "application/x-bzip2"),
    (startsWith head ["\xfd7zXZ\x00"], "application/x-xz"),
    (startsWith head ["7z\xbc\xaf'\x1c"], "application/x-7z-compressed"),
    (startsWith head ["Rar!\x1a\x07\x00", "Rar!\x1a\x07\x01\x00"], "application/vnd.rar"),
    (decide (262 ≤ head.length ∧ slice head 257 262 = latin "ustar"), "application/x-tar"),
    (startsWith head ["\xd0\xcf\x11\xe0\xa1\xb1\x1a\xe1"], "application/x-ole-storage"),
    (isPe head, "application/vnd.microsoft.portable-executable"),
    (startsWith head ["\x7fELF"], "application/x-elf"),
    (startsWith head ["\xfe\xed\xfa\xce", "\xfe\xed\xfa\xcf", "\xce\xfa\xed\xfe",
      "\xcf\xfa\xed\xfe"] || isMachFat head, "application/x-mach-binary"),
    (startsWith head ["\x00asm\x01\x00\x00\x00"], "application/wasm"),
    (startsWith head ["SQLite format 3\x00"], "application/vnd.sqlite3"),
    (isRiff head "WAVE", "audio/wav"),
    (isRiff head "AVI ", "video/x-msvideo"),
    (startsWith head ["fLaC"], "audio/flac"),
    (startsWith head ["OggS"], "application/ogg"),
    (startsWith head ["ID3", "\xff\xfb", "\xff\xf3", "\xff\xf2"], "audio/mpeg"),
    (hasBrand head ["qt  "], "video/quicktime"),
    (hasBrand head mp4Brands, "video/mp4")]

/-- Those it looks for last, after the type of an EBML document. -/
def lateSignatures (head : Bytes) (docType : Option Bytes) : List (Bool × String) :=
  [(decide (docType = some (latin "webm")), "video/webm"),
    (decide (docType = some (latin "matroska")), "video/x-matroska"),
    (decide (32774 ≤ head.length ∧ slice head 32769 32774 = latin "CD001"),
      "application/x-iso9660-image"),
    (decide (132 ≤ head.length ∧ slice head 128 132 = latin "DICM"), "application/dicom")]

def firstMatch (signatures : List (Bool × String)) : Option String :=
  (signatures.find? Prod.fst).map Prod.snd

def signatureMime (head : Bytes) : Except InspectionError (Option String) :=
  match firstMatch (earlySignatures head) with
  | some mime => .ok (some mime)
  | none =>
    if startsWith head ["\x1aE\xdf\xa3"] = true then
      (ebmlDocType (head.take 128)).map fun docType => firstMatch (lateSignatures head docType)
    else .ok (firstMatch (lateSignatures head none))

/-- `Path(filename).suffix.lower()`. -/
def lowerSuffix (filename : Str) : Str :=
  let after := filename.reverse.takeWhile fun code => code ≠ '.'.toNat
  let dot := filename.length - after.length
  tables.lower (if 1 < dot ∧ after ≠ [] then filename.drop (dot - 1) else [])

def zipExtensions : List Str :=
  [".zip", ".docx", ".xlsx", ".pptx", ".odt", ".ods", ".odp", ".jar", ".apk"].map str

def minBinarySample : Nat := 256

def needsZipConfirmation (filename : Str) (head : Bytes) : Bool :=
  if lowerSuffix tables filename ∈ zipExtensions ∨
      startsWith head ["PK\x03\x04", "PK\x05\x06"] = true then true
  else startsWith head ["MZ"] || (decide (minBinarySample ≤ head.length) && !isText tables head)

def zipMime (filename : Str) (head : Bytes) (zipConfirmed : Bool) : Option String :=
  if needsZipConfirmation tables filename head = false ∨ zipConfirmed = false then none
  else some "application/zip"

inductive MimeSource where
  | signature
  | text
  | extension
  | unknown
deriving DecidableEq

inductive ContentState where
  | recognized
  | opaqueContent
  | unknown
deriving DecidableEq

/-- The reasons of an inspection, of which two are warnings as well. -/
inductive Reason where
  | encryptedSuffix
  | extensionMismatch
  | unrecognizedBinary
  | insufficientData
  | unavailable
deriving DecidableEq

structure FileInspection where
  mimeType : String
  mimeSource : MimeSource
  contentState : ContentState
  warning : Option Reason
  reasons : List Reason
deriving DecidableEq

def hasEncryptedSuffix (filename : Str) : Bool :=
  decide (lowerSuffix tables filename ∈ [".enc", ".xor"].map str)

def unknown (filename : Str) (reason : Reason) : FileInspection :=
  let encrypted := hasEncryptedSuffix tables filename
  { mimeType := "application/octet-stream"
    mimeSource := .unknown
    contentState := .unknown
    warning := if encrypted = true then some .encryptedSuffix else none
    reasons := if encrypted = true then [.encryptedSuffix, reason] else [reason] }

def mimeTypesMatch (left right : String) : Bool :=
  decide (left = right) ||
    [("application/zip", "application/x-zip-compressed"),
      ("image/x-icon", "image/vnd.microsoft.icon"),
      ("application/vnd.microsoft.portable-executable", "application/x-msdos-program")].any
      fun names => decide ((left, right) = names ∨ (right, left) = names)

/-- What a file without a signature is taken for. -/
def withoutSignature (filename : Str) (head : Bytes) :
    String × MimeSource × ContentState × Option Reason :=
  if isText tables head = true then ("text/plain", .text, .recognized, none)
  else if minBinarySample ≤ head.length then
    match tables.guessType filename with
    | some mime => (mime, .extension, .opaqueContent, some .unrecognizedBinary)
    | none =>
      ("application/octet-stream", .unknown, .opaqueContent, some .unrecognizedBinary)
  else ("application/octet-stream", .unknown, .unknown, some .insufficientData)

/-- The inspection of a file whose signature is known. -/
def assess (filename : Str) (head : Bytes) (zipConfirmed : Bool) (signature : Option String) :
    FileInspection :=
  let found : String × MimeSource × ContentState × Option Reason :=
    match zipMime tables filename head zipConfirmed <|> signature with
    | some mime => (mime, .signature, .recognized, none)
    | none => withoutSignature tables filename head
  let zipFamilyMatch := decide (found.1 = "application/zip" ∧
    lowerSuffix tables filename ∈ zipExtensions)
  let mismatch :=
    match tables.guessType filename with
    | none => false
    | some extensionMime =>
      decide (found.2.1 = .signature ∧ extensionMime ≠ "application/octet-stream") &&
        !zipFamilyMatch && !mimeTypesMatch found.1 extensionMime
  let encrypted := hasEncryptedSuffix tables filename
  { mimeType := found.1
    mimeSource := found.2.1
    contentState := found.2.2.1
    warning :=
      if encrypted = true then some .encryptedSuffix
      else if mismatch = true then some .extensionMismatch else none
    reasons := (if encrypted = true then [.encryptedSuffix] else []) ++
      (if mismatch = true then [.extensionMismatch] else []) ++ found.2.2.2.toList }

def classify (filename : Str) (head : Bytes) (zipConfirmed : Bool) :
    Except InspectionError FileInspection :=
  (signatureMime head).map (assess tables filename head zipConfirmed)

structure FileStatus where
  isRegular : Bool
  device : Nat
  inode : Nat

inductive ZipAnswer where
  | answers (confirmed : Bool)
  | raises (error : InspectionError) (documented : error ≠ .indexError)

/-- How the calls end that an inspection makes, `none` for an `OSError`.  What is read is the
file from its start. -/
structure FileCalls where
  lstat : Option FileStatus
  opens : Bool
  fstat : Option FileStatus
  currentLstat : Option FileStatus
  read : Option Bytes
  seek : Bool
  isZipfile : ZipAnswer
  closes : Bool

def headReadLimit : Nat := 65536

def isSameRegularFile (before opened : FileStatus) : Bool :=
  opened.isRegular && decide ((before.device, before.inode) = (opened.device, opened.inode))

/-- What is known of a file when it is closed: that it is unavailable, or its head and
whether it is a ZIP file. -/
def sampleFile (calls : FileCalls) (filename : Str) (pathStatus : FileStatus) :
    Except InspectionError (Option (Bytes × Bool)) :=
  match calls.fstat, calls.currentLstat with
  | some opened, some current =>
    if isSameRegularFile pathStatus opened = false ∨
        isSameRegularFile pathStatus current = false then .ok none
    else
      match calls.read with
      | none => .error .osError
      | some content =>
        let head := content.take headReadLimit
        if needsZipConfirmation tables filename head = false then .ok (some (head, false))
        else if calls.seek = false then .error .osError
        else
          match calls.isZipfile with
          | .answers confirmed => .ok (some (head, confirmed))
          | .raises error _ => .error error
  | _, _ => .ok none

def openAndSample (calls : FileCalls) (filename : Str) :
    Except InspectionError (Option (Bytes × Bool)) :=
  match calls.lstat with
  | none => .error .osError
  | some pathStatus =>
    if pathStatus.isRegular = false then .ok none
    else if calls.opens = false then .error .osError
    else
      let sampled := sampleFile tables calls filename pathStatus
      if calls.closes = false then .error .osError else sampled

def inspectFile (calls : FileCalls) (filename : Str) : Except InspectionError FileInspection :=
  match openAndSample tables calls filename with
  | .error .osError => .ok (unknown tables filename .unavailable)
  | .error .valueError => .ok (unknown tables filename .unavailable)
  | .error other => .error other
  | .ok none => .ok (unknown tables filename .unavailable)
  | .ok (some (head, zipConfirmed)) => classify tables filename head zipConfirmed

theorem ebmlDocType_succeeds (head : Bytes) : ∃ docType, ebmlDocType head = .ok docType := by
  unfold ebmlDocType
  cases findFrom (latin "\x42\x82") 0 head with
  | none => exact ⟨none, rfl⟩
  | some elementOffset =>
    dsimp only
    by_cases short : head.length < elementOffset + 3
    · rw [if_pos short]
      exact ⟨none, rfl⟩
    have inside : elementOffset + 2 < head.length := by omega
    have first : byteAt head (elementOffset + 2) = .ok head[elementOffset + 2].toNat := by
      rw [byteAt, List.getElem?_eq_getElem inside]
    rw [if_neg short, first]
    exact ⟨_, rfl⟩

theorem signatureMime_succeeds (head : Bytes) : ∃ mime, signatureMime head = .ok mime := by
  unfold signatureMime
  split
  · exact ⟨_, rfl⟩
  split
  · obtain ⟨docType, found⟩ := ebmlDocType_succeeds (head.take 128)
    rw [found]
    exact ⟨_, rfl⟩
  · exact ⟨_, rfl⟩

theorem classify_succeeds (filename : Str) (head : Bytes) (zipConfirmed : Bool) :
    ∃ inspection, classify tables filename head zipConfirmed = .ok inspection := by
  obtain ⟨signature, found⟩ := signatureMime_succeeds head
  unfold classify
  rw [found]
  exact ⟨_, rfl⟩

/-- The opened file is the one that was found, it is read, and the ZIP probe is asked about
it. -/
def IsProbed (calls : FileCalls) (filename : Str) (pathStatus : FileStatus) : Prop :=
  ∃ opened current content,
    calls.fstat = some opened ∧ calls.currentLstat = some current ∧ calls.read = some content ∧
    ¬ (isSameRegularFile pathStatus opened = false ∨ isSameRegularFile pathStatus current = false) ∧
    ¬ needsZipConfirmation tables filename (content.take headReadLimit) = false ∧
    ¬ calls.seek = false

def AsksProbe (calls : FileCalls) (filename : Str) : Prop :=
  ∃ pathStatus, calls.lstat = some pathStatus ∧ ¬ pathStatus.isRegular = false ∧
    ¬ calls.opens = false ∧ ¬ calls.closes = false ∧ IsProbed tables calls filename pathStatus

/-- What escapes the `except` clause is `BadZipFile` from the probe. -/
def ProbeEscapes (calls : FileCalls) (filename : Str) : Prop :=
  AsksProbe tables calls filename ∧ ∃ documented, calls.isZipfile = .raises .badZipFile documented

variable {tables} {calls : FileCalls} {filename : Str} {error : InspectionError}

theorem sampleFile_error {pathStatus : FileStatus}
    (failed : sampleFile tables calls filename pathStatus = .error error) :
    error = .osError ∨ IsProbed tables calls filename pathStatus ∧
      ∃ documented, calls.isZipfile = .raises error documented := by
  unfold sampleFile at failed
  split at failed
  · case _ opened current isOpened isCurrent =>
    split at failed
    · cases failed
    rename_i same
    split at failed
    · cases failed
      exact .inl rfl
    rename_i content isContent
    dsimp only at failed
    split at failed
    · cases failed
    rename_i probed
    split at failed
    · cases failed
      exact .inl rfl
    rename_i seeks
    split at failed
    · cases failed
    rename_i raised documented answer
    cases failed
    exact .inr ⟨⟨opened, current, content, isOpened, isCurrent, isContent, same,
      probed, seeks⟩, documented, answer⟩
  · cases failed

theorem openAndSample_error (failed : openAndSample tables calls filename = .error error) :
    error = .osError ∨ AsksProbe tables calls filename ∧
      ∃ documented, calls.isZipfile = .raises error documented := by
  unfold openAndSample at failed
  split at failed
  · cases failed
    exact .inl rfl
  rename_i pathStatus isStatus
  split at failed
  · cases failed
  rename_i regular
  split at failed
  · cases failed
    exact .inl rfl
  rename_i opens
  dsimp only at failed
  split at failed
  · cases failed
    exact .inl rfl
  rename_i closes
  rcases sampleFile_error failed with other | ⟨probed, raised⟩
  · exact .inl other
  · exact .inr ⟨⟨pathStatus, isStatus, regular, opens, closes, probed⟩, raised⟩

theorem openAndSample_of_escapes (escapes : ProbeEscapes tables calls filename) :
    openAndSample tables calls filename = .error .badZipFile := by
  obtain ⟨⟨pathStatus, isStatus, regular, opens, closes, opened, current, content, isOpened,
    isCurrent, isContent, same, probed, seeks⟩, documented, raised⟩ := escapes
  unfold openAndSample sampleFile
  simp only [isStatus, isOpened, isCurrent, isContent, raised, if_neg regular, if_neg opens,
    if_neg closes, if_neg same, if_neg probed, if_neg seeks]

/-- An inspection gives a result, with every indexed byte in the head, exactly if the ZIP probe
does not raise `BadZipFile` in it. -/
theorem inspection_total_iff (tables : Tables) (calls : FileCalls) (filename : Str) :
    ((∃ inspection, inspectFile tables calls filename = .ok inspection) ∧
        ∀ head, ∃ docType, ebmlDocType head = .ok docType) ↔
      ¬ ProbeEscapes tables calls filename := by
  constructor
  · rintro ⟨⟨inspection, inspected⟩, _⟩ escapes
    rw [inspectFile, openAndSample_of_escapes escapes] at inspected
    cases inspected
  · intro caught
    refine ⟨?_, ebmlDocType_succeeds⟩
    unfold inspectFile
    cases sampled : openAndSample tables calls filename with
    | ok sample =>
      cases sample with
      | none => exact ⟨_, rfl⟩
      | some found => exact classify_succeeds tables filename found.1 found.2
    | error error =>
      rcases openAndSample_error sampled with rfl | ⟨asked, documented, raised⟩
      · exact ⟨_, rfl⟩
      · cases error with
        | osError | valueError => exact ⟨_, rfl⟩
        | badZipFile => exact absurd ⟨asked, documented, raised⟩ caught
        | indexError => exact absurd rfl documented

/-- A ZIP64 locator that announces two disks, before the end of a central directory. -/
def splitArchive : Bytes :=
  latin "PK\x06\x07" ++ List.replicate 12 0 ++ [2, 0, 0, 0] ++ latin "PK\x05\x06" ++
    List.replicate 18 0

def splitArchiveCalls : FileCalls :=
  let status := { isRegular := true, device := 1, inode := 2 }
  { lstat := some status
    opens := true
    fstat := some status
    currentLstat := some status
    read := some splitArchive
    seek := true
    isZipfile := .raises .badZipFile nofun
    closes := true }

def asciiTables : Tables :=
  { lower := id
    isPrintable := fun char => decide (32 ≤ char.toNat ∧ char.toNat < 127)
    isSpace := fun char => decide (char = ' ')
    guessType := fun _ => none }

theorem splitArchive_escapes :
    inspectFile asciiTables splitArchiveCalls (str "a.zip") = .error .badZipFile := by
  decide +kernel

end XFerry.Inspection
