/-
Which file a request names: the paths of GET and FETCH, and the file that a response to
them streams.

The file system is what it is at one moment.  Nothing here keeps it from changing
between two questions.
-/

import XFerry.Ensures
import XFerry.Http.Request

namespace XFerry.Server

open Python Http

/-- A `PosixPath`.  Its root is one slash, or exactly two where it starts so. -/
structure FilePath where
  root : Text
  parts : List Text
deriving DecidableEq

def pathParts (text : Text) : List Text :=
  (text.splitOn '/').filter fun part => part ≠ [] ∧ part ≠ ['.']

/-- `base / text`, where an absolute text stands for itself. -/
def FilePath.join (base : FilePath) (text : Text) : FilePath :=
  match (text.takeWhile (· = '/')).length with
  | 0 => { base with parts := base.parts ++ pathParts text }
  | 2 => { root := "//".toList, parts := pathParts text }
  | _ => { root := "/".toList, parts := pathParts text }

/-- Whether `relative_to` succeeds. -/
def FilePath.isRelativeTo (path base : FilePath) : Bool :=
  path.root = base.root && base.parts.isPrefixOf path.parts

/-- Why there is no path: a `None`, a `ValueError`, or another exception. -/
inductive PathFault where
  | absent
  | valueError
  | raised
deriving DecidableEq

inductive FileKind where
  | file
  | directory
deriving DecidableEq

/-- What the file system and the registry of SMUGGLE artifacts answer.  `artifact` says
of a registered artifact whether it can be claimed. -/
structure Files where
  resolve : FilePath → Except PathFault FilePath
  kind : FilePath → Option FileKind
  packageResource : Text → Option FilePath
  etag : FilePath → Text
  artifact : FilePath → Option Bool

def hiddenFiles : List Text :=
  [".opsec_config.json", ".env", ".gitignore", ".git", "__pycache__"].map String.toList

def isHiddenPart (part : Text) : Bool :=
  (part ≠ ".".toList && part ≠ "..".toList && ".".toList.isPrefixOf part) ||
    hiddenFiles.contains part

def isHiddenFile (path : Text) : Bool :=
  let normalized := path.map fun char => if char = '\\' then '/' else char
  ((normalized.splitOn '/').filter fun part => !part.isEmpty).any isHiddenPart

/-- `path.lstrip("/")`. -/
def stripSlashes (path : Text) : Text := path.dropWhile (· = '/')

variable (uploadDir : FilePath) (files : Files)

/-- `resolve_descendant_path`, without the check of links. -/
def resolveDescendantPath (cleanPath : Text) : Except PathFault FilePath := do
  let base ← files.resolve uploadDir
  let path ← if cleanPath = [] then .ok base else files.resolve (uploadDir.join cleanPath)
  if path.isRelativeTo base = true then .ok path else .error .absent

def uploadRelative (cleanPath : Text) : Text :=
  if "uploads/".toList.isPrefixOf cleanPath = true then cleanPath.drop 8
  else if cleanPath = "uploads".toList then []
  else cleanPath

/-- `_get_file_path` of the sandbox. -/
def getFilePath (path : Text) : Except PathFault FilePath :=
  let urlPath := if path = "/".toList then "/index.html".toList else path
  resolveDescendantPath uploadDir files (uploadRelative (stripSlashes urlPath))

def packagePath (name : Text) : Except PathFault FilePath :=
  match files.packageResource name with
  | none => .error .absent
  | some path => .ok path

def existingFile (path : FilePath) : Except PathFault FilePath :=
  match files.kind path with
  | none => .error .absent
  | some .file => .ok path
  | some .directory =>
    let index := path.join "index.html".toList
    if (files.kind index).isSome = true then .ok index else .error .absent

def resolveGetPath (path : Text) : Except PathFault FilePath := do
  let urlPath := stripSlashes path
  if isHiddenFile path = true then .error .absent
  else if urlPath = [] ∨ urlPath = "index.html".toList then
    let found ← packagePath files "index.html".toList
    existingFile files found
  else if "static/".toList.isPrefixOf urlPath = true then
    let found ← packagePath files urlPath
    existingFile files found
  else
    let found ← getFilePath uploadDir files path
    existingFile files found

def isUploadDescendant (path : FilePath) : Except PathFault Bool :=
  let resolved := do
    let target ← files.resolve path
    let base ← files.resolve uploadDir
    .ok (target.isRelativeTo base)
  match resolved with
  | .error .valueError => .ok false
  | other => other

/-- The file that the response of `_serve_file` streams, if it streams one. -/
def serveFile (request : HTTPRequest) (path : FilePath) : Except PathFault (Option FilePath) := do
  let urlPath := stripSlashes request.requestLine.path
  let isUserUpload ← isUploadDescendant uploadDir files path
  match files.artifact path with
  | some false => .ok none
  | artifact =>
    if (urlPath = [] ∨ urlPath = "index.html".toList) ∧ isUserUpload = false ∧
        artifact = none then .ok none
    else if files.etag path ≠ [] ∧
        request.header "if-none-match" = some (files.etag path) then .ok none
    else .ok (some path)

/-- What `handle_get` streams. -/
def streamOfGet (request : HTTPRequest) : Except PathFault (Option FilePath) :=
  if request.requestLine.path = "/metrics".toList then .ok none
  else do
    let path ← resolveGetPath uploadDir files request.requestLine.path
    serveFile uploadDir files request path

/-- What `handle_fetch` streams. -/
def streamOfFetch (request : HTTPRequest) : Except PathFault (Option FilePath) :=
  if isHiddenFile request.requestLine.path = true then .ok none
  else do
    let path ← getFilePath uploadDir files request.requestLine.path
    match files.kind path with
    | some .file => .ok (some path)
    | some .directory => .ok none
    | none => .ok none

def storedStream (stream : Except PathFault (Option FilePath)) : Option FilePath :=
  match stream with
  | .error _ => none
  | .ok none => none
  | .ok (some path) => if isUploadDescendant uploadDir files path =
    .ok true then some path else none

variable {uploadDir : FilePath} {files : Files} {request : HTTPRequest} {path : FilePath}

theorem serveFile_ensures :
    Ensures (serveFile uploadDir files request path) fun stream =>
      ∀ streamed ∈ stream, streamed = path := by
  intro stream served streamed member
  unfold serveFile at served
  cases descendant : isUploadDescendant uploadDir files path with
  | error fault =>
    rw [descendant] at served
    cases served
  | ok isUserUpload =>
    simp only [descendant, bind, Except.bind] at served
    split at served
    · cases served
      cases member
    split at served
    · cases served
      cases member
    split at served
    · cases served
      cases member
    · cases served
      cases member
      rfl

theorem storedStream_eq_some {stream : Except PathFault (Option FilePath)}
    (stored : storedStream uploadDir files stream = some path) :
    stream = .ok (some path) ∧ isUploadDescendant uploadDir files path = .ok true := by
  unfold storedStream at stored
  split at stored
  · cases stored
  · cases stored
  · split at stored
    · case isTrue descendant =>
      cases stored
      exact ⟨rfl, descendant⟩
    · cases stored

theorem resolveGetPath_of_stream
    (streamed : streamOfGet uploadDir files request = .ok (some path)) :
    resolveGetPath uploadDir files request.requestLine.path = .ok path := by
  unfold streamOfGet at streamed
  split at streamed
  · cases streamed
  · cases resolved : resolveGetPath uploadDir files request.requestLine.path with
    | error fault =>
      rw [resolved] at streamed
      cases streamed
    | ok found =>
      rw [resolved] at streamed
      have same := serveFile_ensures _ streamed path rfl
      rw [same]

theorem getFilePath_of_stream (streamed : streamOfFetch uploadDir files request = .ok (some path)) :
    getFilePath uploadDir files request.requestLine.path = .ok path := by
  unfold streamOfFetch at streamed
  split at streamed
  · cases streamed
  · cases resolved : getFilePath uploadDir files request.requestLine.path with
    | error fault =>
      rw [resolved] at streamed
      cases streamed
    | ok found =>
      simp only [resolved, bind, Except.bind] at streamed
      split at streamed
      · cases streamed
        rfl
      · cases streamed
      · cases streamed

end XFerry.Server
