/-
Where the five operations can get to.

A path is resolved before it is compared with the upload directory, so its place has
no links left on it.  Two things are not compared again: the index.html of a directory
that GET finds, and the names of a place, of which the check of hidden names has seen
the text of the request only.
-/

import XFerry.FileTree
import XFerry.Server.StoredFiles

namespace XFerry.Server

open Python FileTree List

/-- `levels` is how deep links may be nested before `resolve` raises. -/
structure FileHost where
  tree : FileTree
  cwd : Place
  levels : Nat
  uploadDir : FilePath
  packageData : FilePath
  unquote : Text → Text
  cwd_resolved : tree.Resolved cwd

def FilePath.ofPlace (place : Place) : FilePath := { root := "/".toList, parts := place }

/-- `base.joinpath(*names)`, for names that are not absolute. -/
def FilePath.joinNames (base : FilePath) (names : List Name) : FilePath :=
  { base with parts := base.parts ++ names }

def indexName : Name := "index.html".toList

def isHiddenName (name : Name) : Bool :=
  ".".toList.isPrefixOf name || hiddenFiles.contains name

namespace FileHost

variable (host : FileHost)

def start (path : FilePath) : Place := if path.root = [] then host.cwd else []

def resolve (path : FilePath) : Except PathFault FilePath :=
  match host.tree.realPath host.levels (host.start path) path.parts with
  | .ok place => .ok (.ofPlace place)
  | .error .nullCharacter => .error .valueError
  | .error .tooManyLinks => .error .raised

def maxLinks : Nat := 40

def leadsTo (path : FilePath) : Option Place :=
  host.tree.leadsTo maxLinks (host.start path) path.parts

def kindOf : Entry → Option FileKind
  | .file => some .file
  | .directory => some .directory
  | .link _ => none

/-- `exists` and `is_dir`. -/
def kind (path : FilePath) : Option FileKind :=
  ((host.leadsTo path).bind host.tree.entry).bind kindOf

def isLink (place : Place) : Bool :=
  match host.tree.entry place with
  | some (.link _) => true
  | _ => false

def isSymlink (path : FilePath) : Bool :=
  match path.parts.getLast? with
  | none => false
  | some name =>
    match host.tree.leadsTo maxLinks (host.start path) path.parts.dropLast with
    | none => false
    | some directory => host.isLink (directory ++ [name])

/-- `PureWindowsPath(part).drive`. -/
def hasDrive (part : Text) : Bool := part.tail.head? = some ':'

/-- `PureWindowsPath(text).is_absolute()`. -/
def isWindowsAbsolute (text : Text) : Bool :=
  hasDrive text && (text.drop 2).head? = some '/'

def isUnsafePart (part : Text) : Bool :=
  part = [] || part = ['.'] || part = ['.', '.'] || hasDrive part

def safePackageResourceParts (resourcePath : Text) : Option (List Text) :=
  let decoded := host.unquote resourcePath
  if decoded = [] ∨ '\\' ∈ decoded ∨ decoded.head? = some '/' ∨
      isWindowsAbsolute decoded = true then none
  else
    let parts := decoded.splitOn '/'
    if parts.any isUnsafePart = true then none else some parts

def containedResourcePath (path resourceRoot : FilePath) : Option FilePath :=
  match host.resolve path, host.resolve resourceRoot with
  | .ok resolved, .ok base => if resolved.isRelativeTo base = true then some resolved else none
  | _, _ => none

/-- `get_package_resource`. -/
def packageResource (resourcePath : Text) : Option FilePath :=
  match host.safePackageResourceParts resourcePath with
  | none => none
  | some parts =>
    match host.containedResourcePath (host.packageData.joinNames parts) host.packageData with
    | none => none
    | some path => if (host.kind path).isSome = true then some path else none

def files : Files :=
  { resolve := host.resolve
    kind := host.kind
    packageResource := host.packageResource
    etag := fun _ => []
    artifact := fun _ => none }

def isUploadRoot (path : FilePath) : Bool :=
  match host.resolve path, host.resolve host.uploadDir with
  | .ok resolved, .ok base => resolved = base
  | _, _ => false

def isDeletable (path : FilePath) : Bool :=
  match host.resolve path, host.resolve host.uploadDir with
  | .ok resolved, .ok base => resolved.isRelativeTo base
  | _, _ => false

def resolveSafePath (cleanPath : Text) : Except PathFault FilePath := do
  let path ← resolveDescendantPath host.uploadDir host.files cleanPath
  if cleanPath ≠ [] ∧ host.isSymlink (host.uploadDir.join cleanPath) = true then .error .absent
  else .ok path

def handleGet (path : Text) : Except PathFault FilePath :=
  if path = "/metrics".toList then .error .absent
  else resolveGetPath host.uploadDir host.files path

def sourceFile (path : Text) : Except PathFault FilePath :=
  if isHiddenFile path = true then .error .absent
  else do
    let found ← getFilePath host.uploadDir host.files path
    if host.kind found = some .file then .ok found else .error .absent

def handleFetch (path : Text) : Except PathFault FilePath := host.sourceFile path

def handleSmuggle (path : Text) : Except PathFault FilePath := host.sourceFile path

def handleDelete (clear : Bool) (path : Text) : Except PathFault FilePath :=
  if isHiddenFile path = true then .error .absent
  else do
    let found ← getFilePath host.uploadDir host.files path
    match host.kind found with
    | none => .error .absent
    | some kind =>
      if host.isUploadRoot found = true ∧ clear = true then .ok found
      else if kind = .directory then .error .absent
      else if host.isDeletable found = true then .ok found
      else .error .absent

def handleInfo (path : Text) : Except PathFault FilePath :=
  if isHiddenFile path = true then .error .absent
  else do
    let found ← host.resolveSafePath (uploadRelative (stripSlashes path))
    if (host.kind found).isSome = true then .ok found else .error .absent

def isInfoItem (directory : FilePath) (name : Name) : Bool :=
  (host.tree.entry (directory.parts ++ [name])).isSome && !isHiddenName name &&
    !host.isLink (directory.parts ++ [name])

inductive Operation where
  | get
  | fetch
  | delete (clear : Bool)
  | info
  | smuggle
deriving DecidableEq

def answer : Operation → Text → Except PathFault FilePath
  | .get => host.handleGet
  | .fetch => host.handleFetch
  | .delete clear => host.handleDelete clear
  | .info => host.handleInfo
  | .smuggle => host.handleSmuggle

/-- What the operation works on: its file, or an item of the directory that INFO lists. -/
inductive Reaches (operation : Operation) (path : Text) : FilePath → Prop where
  | file {target : FilePath} (answered : host.answer operation path = .ok target) :
      Reaches operation path target
  | item {directory : FilePath} {name : Name} (isInfo : operation = .info)
      (answered : host.answer operation path = .ok directory)
      (isDirectory : host.kind directory = some .directory)
      (listed : host.isInfoItem directory name = true) :
      Reaches operation path (directory.joinNames [name])

end FileHost

def unbackslash (char : Char) : Char := if char = '\\' then '/' else char

def isSplitApart (name : Name) : Bool :=
  ".\\".toList.isPrefixOf name || "..\\".toList.isPrefixOf name

variable {name : Name}

theorem isHiddenName_of_isSplitApart (apart : isSplitApart name = true) :
    isHiddenName name = true := by
  unfold isSplitApart at apart
  unfold isHiddenName
  rw [Bool.or_eq_true] at apart ⊢
  left
  rw [List.isPrefixOf_iff_prefix] at apart ⊢
  rcases apart with one | two
  · exact List.IsPrefix.trans (by decide) one
  · rw [List.isPrefixOf_iff_prefix] at two
    exact List.IsPrefix.trans (by decide) two

theorem mem_splitOn_append {separator : Char} {text : Text} {part : Text} (before : Text)
    (member : part ∈ text.splitOn separator) :
    part ∈ (before ++ separator :: text).splitOn separator := by
  rw [splitOn_append_cons_self]
  exact mem_append_right _ member

theorem not_mem_of_mem_splitOn {separator : Char} {text part : Text}
    (member : part ∈ text.splitOn separator) : separator ∉ part := by
  induction text generalizing part with
  | nil =>
    rw [splitOn_nil, mem_singleton] at member
    rw [member]
    exact not_mem_nil
  | cons char rest ih =>
    rw [splitOn_cons_eq_if_modifyHead] at member
    split at member
    · rcases mem_cons.mp member with rfl | later
      · exact not_mem_nil
      · exact ih later
    rename_i other
    obtain ⟨first, others, pieces⟩ := exists_cons_of_ne_nil (splitOn_ne_nil separator rest)
    rw [pieces] at member ih
    rcases mem_cons.mp member with rfl | later
    · rintro inside
      rcases mem_cons.mp inside with rfl | deeper
      · exact other (beq_self_eq_true _)
      · exact ih mem_cons_self deeper
    · exact ih (mem_cons_of_mem _ later)

theorem splitOn_unbackslash (path : Text) :
    (path.map unbackslash).splitOn '/' =
      (path.splitOn '/').flatMap fun part => (part.map unbackslash).splitOn '/' := by
  induction path with
  | nil => rfl
  | cons char rest ih =>
    obtain ⟨first, others, pieces⟩ := exists_cons_of_ne_nil (splitOn_ne_nil '/' rest)
    rw [map_cons, splitOn_cons_eq_if_modifyHead, splitOn_cons_eq_if_modifyHead, ih, pieces]
    by_cases slash : char = '/'
    · rw [slash]
      rfl
    rw [if_neg (by simpa using slash) (c := (char == '/') = true)]
    rw [modifyHead_cons, flatMap_cons, flatMap_cons, map_cons, splitOn_cons_eq_if_modifyHead]
    split
    · rfl
    obtain ⟨head, tail, parts⟩ := exists_cons_of_ne_nil (splitOn_ne_nil '/' (first.map unbackslash))
    rw [parts]
    rfl

theorem isHiddenPart_of_isHiddenFile {path part piece : Text} (shown : isHiddenFile path = false)
    (isPart : part ∈ path.splitOn '/') (isPiece : piece ∈ (part.map unbackslash).splitOn '/')
    (nonempty : piece ≠ []) : isHiddenPart piece = false := by
  unfold isHiddenFile at shown
  rw [any_eq_false] at shown
  rw [Bool.eq_false_iff]
  refine shown piece (mem_filter.mpr ⟨?_, by simpa using nonempty⟩)
  change piece ∈ (path.map unbackslash).splitOn '/'
  rw [splitOn_unbackslash, mem_flatMap]
  exact ⟨part, isPart, isPiece⟩

theorem hiddenFiles_unsplit : ∀ name ∈ hiddenFiles,
    name ∈ (name.map unbackslash).splitOn '/' ∧ name ≠ [] ∧ isHiddenPart name = true := by
  decide

theorem splitOn_of_plain (front rest : Text)
    (plain : ∀ char ∈ front, char ≠ '\\' ∧ char ≠ '/') : ∃ more others,
    ((front ++ rest).map unbackslash).splitOn '/' = (front ++ more) :: others := by
  induction front with
  | nil => exact exists_cons_of_ne_nil (splitOn_ne_nil '/' _)
  | cons char front ih =>
    rw [forall_mem_cons] at plain
    obtain ⟨more, others, pieces⟩ := ih plain.2
    have same : unbackslash char = char := if_neg plain.1.1
    refine ⟨more, others, ?_⟩
    rw [cons_append, map_cons, same, splitOn_cons_eq_if_modifyHead,
      if_neg (by simpa using plain.1.2), pieces]
    rfl

theorem isHiddenPart_of_dot {part : Text} (notCurrent : part ≠ currentName)
    (notParent : part ≠ parentName) (dot : part.head? = some '.') : isHiddenPart part = true := by
  cases part with
  | nil => cases dot
  | cons char rest =>
    cases dot
    unfold isHiddenPart
    rw [Bool.or_eq_true]
    left
    rw [Bool.and_eq_true, Bool.and_eq_true]
    exact ⟨⟨decide_eq_true notCurrent, decide_eq_true notParent⟩, rfl⟩

variable {path : Text}

theorem isSplitApart_of_shown (shown : isHiddenFile path = false)
    (isPart : name ∈ path.splitOn '/') (proper : IsEntryName name)
    (hidden : isHiddenName name = true) : isSplitApart name = true := by
  have noSlash := not_mem_of_mem_splitOn isPart
  have noHiddenPiece (front rest more : Text) (others : List Text) (isName : name = front ++ rest)
      (pieces : ((front ++ rest).map unbackslash).splitOn '/' = (front ++ more) :: others)
      (nonempty : front ≠ []) : isHiddenPart (front ++ more) = false := by
    refine isHiddenPart_of_isHiddenFile shown isPart ?_ (by simp [nonempty])
    rw [isName, pieces]
    exact mem_cons_self
  unfold isHiddenName at hidden
  rw [Bool.or_eq_true, contains_iff_mem] at hidden
  rcases hidden with dot | listed
  · cases name with
    | nil => cases dot
    | cons first tail =>
      have isDot : '.' = first := by simpa using dot
      subst isDot
      cases tail with
      | nil => exact absurd rfl proper.ne_current
      | cons second rest =>
        by_cases backslash : second = '\\'
        · rw [backslash]
          rfl
        have slash : second ≠ '/' := fun same => noSlash (by simp [same])
        by_cases secondDot : second = '.'
        · subst secondDot
          cases rest with
          | nil => exact absurd rfl proper.ne_parent
          | cons third rest =>
            by_cases backslash : third = '\\'
            · rw [backslash]
              rfl
            have slash : third ≠ '/' := fun same => noSlash (by simp [same])
            obtain ⟨more, others, pieces⟩ := splitOn_of_plain ['.', '.', third] rest
              (by simp [backslash, slash])
            have visible := noHiddenPiece ['.', '.', third] rest more others rfl pieces (by simp)
            cases visible
        · obtain ⟨more, others, pieces⟩ := splitOn_of_plain ['.', second] rest
            (by simp [backslash, slash])
          have visible := noHiddenPiece ['.', second] rest more others rfl pieces (by simp)
          rw [isHiddenPart_of_dot (by simp [currentName])
            (by simp [parentName, secondDot]) rfl] at visible
          cases visible
  · obtain ⟨isPiece, nonempty, hiddenPart⟩ := hiddenFiles_unsplit name listed
    rw [isHiddenPart_of_isHiddenFile shown isPart isPiece nonempty] at hiddenPart
    cases hiddenPart

theorem mem_splitOn_of_stripSlashes {path part : Text}
    (member : part ∈ (stripSlashes path).splitOn '/') : part ∈ path.splitOn '/' := by
  unfold stripSlashes at member
  induction path with
  | nil => exact member
  | cons char rest ih =>
    rw [dropWhile_cons] at member
    split at member
    · case _ slash =>
        rw [of_decide_eq_true slash]
        exact mem_splitOn_append [] (ih member)
    · exact member

theorem mem_splitOn_of_uploadRelative {path part : Text}
    (member : part ∈ pathParts (uploadRelative path)) : part ∈ path.splitOn '/' := by
  obtain ⟨isPart, named⟩ := mem_filter.mp member
  have nonempty : part ≠ [] := (of_decide_eq_true named).1
  unfold uploadRelative at isPart
  split at isPart
  · case _ below =>
      obtain ⟨rest, same⟩ := isPrefixOf_iff_prefix.mp below
      rw [← same] at isPart ⊢
      exact mem_splitOn_append "uploads".toList isPart
  · split at isPart
    · rw [splitOn_nil, mem_singleton] at isPart
      exact absurd isPart nonempty
    · exact isPart

namespace FileHost

variable (host : FileHost)

/-- GET serves the application and its static assets from the data of the package. -/
def IsAsset (operation : Operation) (path : Text) : Prop :=
  operation = .get ∧ (stripSlashes path = [] ∨ stripSlashes path = indexName ∨
    "static/".toList.isPrefixOf (stripSlashes path) = true)

instance (operation : Operation) (path : Text) : Decidable (IsAsset operation path) := by
  unfold IsAsset
  infer_instance

def assetName (path : Text) : Text := if stripSlashes path =
  [] then indexName else stripSlashes path

def cleanPath (operation : Operation) (path : Text) : Text :=
  if operation ≠ .info ∧ path = "/".toList then indexName else uploadRelative (stripSlashes path)

def base (operation : Operation) (path : Text) : FilePath :=
  if IsAsset operation path then host.packageData else host.uploadDir

/-- What is in the place that the path names, with all links followed. -/
def Names (operation : Operation) (path : Text) (found : FilePath) : Prop :=
  if IsAsset operation path then host.packageResource (assetName path) = some found
  else ∃ base, host.resolve host.uploadDir = .ok base ∧
    host.resolve (host.uploadDir.join (cleanPath operation path)) = .ok found ∧
    found.isRelativeTo base = true

def indexOf (directory : FilePath) : FilePath := directory.joinNames [indexName]

/-- The file that the operation makes of what it has found. -/
def Delivers (operation : Operation) (found target : FilePath) : Prop :=
  match operation with
  | .get =>
    (host.kind found = some .file ∧ target = found) ∨
      (host.kind found = some .directory ∧ (host.kind (indexOf found)).isSome = true ∧
        target = indexOf found)
  | .fetch => host.kind found = some .file ∧ target = found
  | .smuggle => host.kind found = some .file ∧ target = found
  | .delete clear =>
    (host.kind found = some .file ∨ (host.kind found = some .directory ∧ clear = true ∧
      host.isUploadRoot found = true)) ∧ target = found
  | .info => (host.kind found).isSome = true ∧ target = found

def Serves (operation : Operation) (found : FilePath) : Prop :=
  ∃ target, host.Delivers operation found target

def IsBelow (directory : FilePath) (place : Place) (rest : List Name) : Prop :=
  ∃ base, host.resolve directory = .ok (.ofPlace base) ∧ place = base ++ rest

/-- Every file of the operation is, with all links followed, below its directory, and
where there are no links none of the names on the way is hidden. -/
def Contained (operation : Operation) (path : Text) : Prop :=
  ∀ target, host.Reaches operation path target →
    ∃ place rest, host.leadsTo target = some place ∧
      host.IsBelow (host.base operation path) place rest ∧
      (host.tree.LinkFree → ∀ name ∈ rest, isHiddenName name = false)

variable {host : FileHost}

theorem isRelativeTo_ofPlace {place base : Place} :
    (FilePath.ofPlace place).isRelativeTo (.ofPlace base) = true ↔ base <+: place := by
  simp [FilePath.isRelativeTo, FilePath.ofPlace]

theorem start_resolved (path : FilePath) : host.tree.Resolved (host.start path) := by
  unfold start
  split
  · exact host.cwd_resolved
  · exact Resolved.root

theorem start_ofPlace (place : Place) : host.start (.ofPlace place) = [] := rfl

theorem resolve_eq_ok {path found : FilePath} (resolved : host.resolve path = .ok found) :
    ∃ place, found = .ofPlace place ∧
      host.tree.realPath host.levels (host.start path) path.parts = .ok place := by
  unfold resolve at resolved
  split at resolved
  · case _ place walked =>
      cases resolved
      exact ⟨place, rfl, walked⟩
  · cases resolved
  · cases resolved

variable {place : Place}

theorem resolve_of_walk {path : FilePath}
    (walked : host.tree.realPath host.levels (host.start path) path.parts = .ok place) :
    host.resolve path = .ok (.ofPlace place) := by
  unfold resolve
  rw [walked]

theorem resolve_resolved {path : FilePath}
    (resolved : host.resolve path = .ok (.ofPlace place)) : host.tree.Resolved place := by
  obtain ⟨other, same, walked⟩ := resolve_eq_ok resolved
  cases same
  exact realPath_resolved host.levels _ _ (start_resolved path) place walked

theorem levels_of_resolve {path found : FilePath} (resolved : host.resolve path = .ok found) :
    ∃ levels, host.levels = levels + 1 := by
  obtain ⟨place, _, walked⟩ := resolve_eq_ok resolved
  cases none : host.levels with
  | zero =>
    rw [none] at walked
    cases walked
  | succ levels => exact ⟨levels, rfl⟩

theorem resolve_of_resolved {path found : FilePath} (resolved : host.resolve path = .ok found) :
    host.resolve found = .ok found := by
  obtain ⟨levels, more⟩ := levels_of_resolve resolved
  obtain ⟨place, rfl, _⟩ := resolve_eq_ok resolved
  refine resolve_of_walk ?_
  rw [start_ofPlace, more]
  exact realPath_of_resolved [] (resolve_resolved resolved)

theorem leadsTo_ofPlace (resolved : host.tree.Resolved place) :
    host.leadsTo (.ofPlace place) = if host.tree.entry place = none then none else some place :=
  leadsTo_of_resolved maxLinks resolved

theorem exists_leadsTo {path : FilePath} (there : (host.kind path).isSome = true) :
    ∃ place, host.leadsTo path = some place := by
  unfold kind at there
  cases leads : host.leadsTo path with
  | none =>
    rw [leads] at there
    cases there
  | some place => exact ⟨place, rfl⟩

theorem leadsTo_of_kind (resolved : host.tree.Resolved place)
    (there : (host.kind (.ofPlace place)).isSome = true) :
    host.leadsTo (.ofPlace place) = some place := by
  obtain ⟨reached, leads⟩ := exists_leadsTo there
  rw [leadsTo_ofPlace resolved] at leads ⊢
  split at leads
  · cases leads
  · case _ found => rw [if_neg found]

theorem join_nil (directory : FilePath) : directory.join [] = directory := by
  simp [FilePath.join, pathParts, splitOn_nil]

theorem keep_eq_ok {path base found : FilePath} :
    (if path.isRelativeTo base = true then Except.ok path else .error PathFault.absent) =
      .ok found ↔ path = found ∧ found.isRelativeTo base = true := by
  constructor
  · intro kept
    split at kept
    · case _ below =>
        cases kept
        exact ⟨rfl, below⟩
    · cases kept
  · rintro ⟨rfl, below⟩
    exact if_pos below

variable {found : FilePath}

theorem resolveDescendantPath_eq_ok {cleanPath : Text} :
    resolveDescendantPath host.uploadDir host.files cleanPath = .ok found ↔
      ∃ base, host.resolve host.uploadDir = .ok base ∧
        host.resolve (host.uploadDir.join cleanPath) = .ok found ∧
        found.isRelativeTo base = true := by
  unfold resolveDescendantPath
  rw [Ensures.bind_eq_ok]
  refine exists_congr fun base => and_congr_right fun isBase => ?_
  change host.resolve host.uploadDir = .ok base at isBase
  by_cases empty : cleanPath = []
  · rw [if_pos empty, Ensures.bind_eq_ok, empty, join_nil, isBase]
    simp only [keep_eq_ok, Except.ok.injEq]
    constructor
    · rintro ⟨path, rfl, rfl, below⟩
      exact ⟨rfl, below⟩
    · rintro ⟨rfl, below⟩
      exact ⟨base, rfl, rfl, below⟩
  · rw [if_neg empty, Ensures.bind_eq_ok]
    simp only [keep_eq_ok]
    constructor
    · rintro ⟨path, resolved, rfl, below⟩
      exact ⟨resolved, below⟩
    · rintro ⟨resolved, below⟩
      exact ⟨found, resolved, rfl, below⟩

variable {operation : Operation}

theorem cleanPath_eq (path : Text) (notInfo : operation ≠ .info) :
    uploadRelative (stripSlashes (if path = "/".toList then "/index.html".toList else path)) =
      cleanPath operation path := by
  unfold cleanPath
  by_cases slash : path = "/".toList
  · rw [if_pos slash, if_pos ⟨notInfo, slash⟩]
    decide
  · rw [if_neg slash, if_neg (fun both => slash both.2)]

theorem getFilePath_eq_ok (notInfo : operation ≠ .info) (notAsset : ¬ IsAsset operation path) :
    getFilePath host.uploadDir host.files path = .ok found ↔ host.Names operation path found := by
  unfold getFilePath Names
  rw [if_neg notAsset, ← cleanPath_eq path notInfo]
  exact resolveDescendantPath_eq_ok

variable {found target : FilePath}

theorem existingFile_eq_ok :
    existingFile host.files found = .ok target ↔ host.Delivers .get found target := by
  unfold existingFile Delivers
  dsimp only [files]
  cases host.kind found with
  | none => simp
  | some kind =>
    cases kind with
    | file =>
      constructor
      · rintro ⟨⟩
        exact .inl ⟨rfl, rfl⟩
      · rintro (⟨_, rfl⟩ | ⟨⟨⟩, _⟩)
        rfl
    | directory =>
      change (if (host.kind (indexOf found)).isSome = true then
        Except.ok (indexOf found) else .error PathFault.absent) = _ ↔ _
      constructor
      · intro answered
        split at answered
        · case _ there =>
            cases answered
            exact .inr ⟨rfl, there, rfl⟩
        · cases answered
      · rintro (⟨⟨⟩, _⟩ | ⟨_, there, rfl⟩)
        exact if_pos there

theorem packagePath_eq_ok {name : Text} :
    packagePath host.files name = .ok found ↔ host.packageResource name = some found := by
  unfold packagePath
  dsimp only [files]
  cases host.packageResource name with
  | none | some => simp

variable {target : FilePath}

theorem handleGet_eq_ok :
    host.handleGet path = .ok target ↔ path ≠ "/metrics".toList ∧ isHiddenFile path = false ∧
      ∃ found, host.Names .get path found ∧ host.Delivers .get found target := by
  unfold handleGet resolveGetPath
  by_cases metrics : path = "/metrics".toList
  · simp [metrics]
  rw [if_neg metrics]
  by_cases hidden : isHiddenFile path = true
  · simp [hidden]
  rw [if_neg hidden]
  have shown : isHiddenFile path = false := by simpa using hidden
  simp only [ne_eq, metrics, not_false_eq_true, shown, true_and, ← existingFile_eq_ok]
  by_cases top : stripSlashes path = [] ∨ stripSlashes path = "index.html".toList
  · have asset : IsAsset .get path := ⟨rfl, top.imp_right .inl⟩
    have name : assetName path = "index.html".toList := by
      unfold assetName
      rcases top with empty | index
      · rw [if_pos empty]
        rfl
      · rw [index]
        decide
    rw [if_pos top, Ensures.bind_eq_ok]
    simp only [packagePath_eq_ok, Names, if_pos asset, name]
  · rw [if_neg top]
    by_cases static : "static/".toList.isPrefixOf (stripSlashes path) = true
    · have asset : IsAsset .get path := ⟨rfl, .inr (.inr static)⟩
      have name : assetName path = stripSlashes path := if_neg fun empty => top (.inl empty)
      rw [if_pos static, Ensures.bind_eq_ok]
      simp only [packagePath_eq_ok, Names, if_pos asset, name]
    · have notAsset : ¬ IsAsset .get path := by
        rintro ⟨_, empty | index | isStatic⟩
        · exact top (.inl empty)
        · exact top (.inr index)
        · exact static isStatic
      rw [if_neg static, Ensures.bind_eq_ok]
      simp only [getFilePath_eq_ok (by decide) notAsset]

theorem not_isAsset (notGet : operation ≠ .get) :
    ¬ IsAsset operation path := fun asset => notGet asset.1

theorem ite_hidden_eq_ok {next : Except PathFault FilePath} :
    (if isHiddenFile path = true then .error .absent else next) = .ok target ↔
      isHiddenFile path = false ∧ next = .ok target := by
  cases isHiddenFile path with
  | true | false => simp

theorem sourceFile_eq_ok (operation : Operation)
    (notInfo : operation ≠ .info) (notGet : operation ≠ .get) :
    host.sourceFile path = .ok target ↔ isHiddenFile path = false ∧
      ∃ found, host.Names operation path found ∧ host.kind found = some .file ∧ target = found := by
  unfold sourceFile
  rw [ite_hidden_eq_ok, Ensures.bind_eq_ok]
  refine and_congr_right fun _ => exists_congr fun found => ?_
  rw [getFilePath_eq_ok notInfo (not_isAsset notGet)]
  refine and_congr_right fun _ => ?_
  constructor
  · intro answered
    split at answered
    · case _ isFile =>
        cases answered
        exact ⟨isFile, rfl⟩
    · cases answered
  · rintro ⟨isFile, rfl⟩
    exact if_pos isFile

theorem isDeletable_of_names (notGet : operation ≠ .get) (names : host.Names operation path found) :
    host.isDeletable found = true := by
  unfold Names at names
  rw [if_neg (not_isAsset notGet)] at names
  obtain ⟨base, isBase, resolved, below⟩ := names
  unfold isDeletable
  rw [resolve_of_resolved resolved, isBase]
  exact below

theorem handleDelete_eq_ok {clear : Bool} :
    host.handleDelete clear path = .ok target ↔ isHiddenFile path = false ∧
      ∃ found, host.Names (.delete clear) path found ∧
        host.Delivers (.delete clear) found target := by
  have notGet : Operation.delete clear ≠ .get := by simp
  unfold handleDelete
  rw [ite_hidden_eq_ok, Ensures.bind_eq_ok]
  refine and_congr_right fun _ => exists_congr fun found => ?_
  rw [getFilePath_eq_ok (by simp) (not_isAsset notGet)]
  refine and_congr_right fun names => ?_
  rw [isDeletable_of_names notGet names]
  unfold Delivers
  cases host.kind found with
  | none => simp
  | some kind =>
    cases kind with
    | file =>
      have either : (if host.isUploadRoot found = true ∧ clear = true then Except.ok found
          else if FileKind.file = .directory then .error PathFault.absent
          else if true = true then .ok found else .error .absent) = .ok found := by
        split <;> rfl
      constructor
      · intro answered
        cases either.symm.trans answered
        exact ⟨.inl rfl, rfl⟩
      · rintro ⟨_, rfl⟩
        exact either
    | directory =>
      change (if host.isUploadRoot found = true ∧ clear = true then Except.ok found
        else .error PathFault.absent) = .ok target ↔ _
      constructor
      · intro answered
        split at answered
        · case _ cleared =>
            cases answered
            exact ⟨.inr ⟨rfl, cleared.2, cleared.1⟩, rfl⟩
        · cases answered
      · rintro ⟨⟨⟨⟩⟩ | ⟨_, cleared, isRoot⟩, rfl⟩
        exact if_pos ⟨isRoot, cleared⟩

theorem resolveSafePath_eq_ok :
    host.resolveSafePath (cleanPath .info path) = .ok found ↔
      ¬ (cleanPath .info path ≠ [] ∧
        host.isSymlink (host.uploadDir.join (cleanPath .info path)) = true) ∧
      host.Names .info path found := by
  unfold resolveSafePath Names
  rw [Ensures.bind_eq_ok, if_neg (not_isAsset (by decide))]
  simp only [resolveDescendantPath_eq_ok]
  constructor
  · rintro ⟨value, names, answered⟩
    split at answered
    · cases answered
    rename_i noLink
    cases answered
    exact ⟨noLink, names⟩
  · rintro ⟨noLink, names⟩
    exact ⟨found, names, if_neg noLink⟩

theorem handleInfo_eq_ok :
    host.handleInfo path = .ok target ↔ isHiddenFile path = false ∧
      ¬ (cleanPath .info path ≠ [] ∧
        host.isSymlink (host.uploadDir.join (cleanPath .info path)) = true) ∧
      ∃ found, host.Names .info path found ∧ host.Delivers .info found target := by
  have clean : uploadRelative (stripSlashes path) = cleanPath .info path := rfl
  unfold handleInfo
  rw [ite_hidden_eq_ok, Ensures.bind_eq_ok, clean]
  refine and_congr_right fun _ => ?_
  simp only [resolveSafePath_eq_ok, and_assoc]
  constructor
  · rintro ⟨found, noLink, names, answered⟩
    refine ⟨noLink, found, names, ?_⟩
    split at answered
    · case _ there =>
        cases answered
        exact ⟨there, rfl⟩
    · cases answered
  · rintro ⟨noLink, found, names, there, rfl⟩
    exact ⟨target, noLink, names, if_pos there⟩

def IsShown (operation : Operation) (path : Text) : Prop :=
  isHiddenFile path = false ∧ (operation = .get → path ≠ "/metrics".toList)

theorem names_of_answer
    (answered : host.answer operation path = .ok target) : IsShown operation path ∧
      ∃ found, host.Names operation path found ∧ host.Delivers operation found target := by
  cases operation with
  | get =>
    obtain ⟨notMetrics, shown, delivered⟩ := handleGet_eq_ok.mp answered
    exact ⟨⟨shown, fun _ => notMetrics⟩, delivered⟩
  | fetch =>
    obtain ⟨shown, delivered⟩ := (sourceFile_eq_ok .fetch (by decide) (by decide)).mp answered
    exact ⟨⟨shown, fun isGet => nomatch isGet⟩, delivered⟩
  | smuggle =>
    obtain ⟨shown, delivered⟩ := (sourceFile_eq_ok .smuggle (by decide) (by decide)).mp answered
    exact ⟨⟨shown, fun isGet => nomatch isGet⟩, delivered⟩
  | delete clear =>
    obtain ⟨shown, delivered⟩ := handleDelete_eq_ok.mp answered
    exact ⟨⟨shown, fun isGet => nomatch isGet⟩, delivered⟩
  | info =>
    obtain ⟨shown, _, delivered⟩ := handleInfo_eq_ok.mp answered
    exact ⟨⟨shown, fun isGet => nomatch isGet⟩, delivered⟩

theorem isSymlink_of_linkFree (linkFree : host.tree.LinkFree) (path : FilePath) :
    host.isSymlink path = false := by
  unfold isSymlink isLink
  split
  · rfl
  split
  · rfl
  split
  · case _ isLink => exact absurd isLink (linkFree _ _)
  · rfl

theorem answer_of_names (shown : IsShown operation path) (names : host.Names operation path found)
    (delivers : host.Delivers operation found target)
    (noLink : operation = .info → host.tree.LinkFree) :
    host.answer operation path = .ok target := by
  cases operation with
  | get => exact handleGet_eq_ok.mpr ⟨shown.2 rfl, shown.1, found, names, delivers⟩
  | fetch =>
    exact (sourceFile_eq_ok .fetch (by decide) (by decide)).mpr ⟨shown.1, found, names, delivers⟩
  | smuggle =>
    exact (sourceFile_eq_ok .smuggle (by decide) (by decide)).mpr ⟨shown.1, found, names, delivers⟩
  | delete clear => exact handleDelete_eq_ok.mpr ⟨shown.1, found, names, delivers⟩
  | info =>
    refine handleInfo_eq_ok.mpr ⟨shown.1, ?_, found, names, delivers⟩
    rintro ⟨_, isLink⟩
    rw [isSymlink_of_linkFree (noLink rfl)] at isLink
    cases isLink

/-- A link in the place of an index.html does not lead out of the directory; no name that
was split apart, nor a hidden one that was escaped twice, is the name of something that
the operation serves. -/
structure Sheltered (host : FileHost) (operation : Operation) (path : Text) : Prop where
  index : operation = .get → ∀ directory place, host.Names operation path directory →
    host.kind directory = some .directory → (host.kind (indexOf directory)).isSome = true →
    host.leadsTo (indexOf directory) = some place →
    ∃ rest, host.IsBelow (host.base operation path) place rest
  names : host.tree.LinkFree → ¬ IsAsset operation path → ∀ found,
    host.Names operation path found → host.Serves operation found → ∀ rest,
    host.IsBelow host.uploadDir found.parts rest → ∀ name ∈ rest, isSplitApart name = false
  assets : host.tree.LinkFree → IsAsset operation path → ∀ found,
    host.Names operation path found → host.Serves operation found → ∀ parts,
    host.safePackageResourceParts (assetName path) = some parts →
    ∀ part ∈ parts, isHiddenName part = false

theorem packageResource_eq_some {name : Text}
    (isResource : host.packageResource name = some found) : ∃ parts base,
    host.safePackageResourceParts name = some parts ∧
      host.resolve (host.packageData.joinNames parts) = .ok found ∧
      host.resolve host.packageData = .ok base ∧ found.isRelativeTo base = true := by
  unfold packageResource at isResource
  split at isResource
  · cases isResource
  rename_i parts safe
  split at isResource
  · cases isResource
  rename_i path contained
  split at isResource
  · cases isResource
    unfold containedResourcePath at contained
    split at contained
    · case _ resolved base isResolved isBase =>
        split at contained
        · case _ below =>
            cases contained
            exact ⟨parts, base, safe, isResolved, isBase, below⟩
        · cases contained
    · cases contained
  · cases isResource

theorem isBelow_of_isRelativeTo {directory base : FilePath}
    (isBase : host.resolve directory = .ok base)
    (below : (FilePath.ofPlace place).isRelativeTo base = true) :
    ∃ rest, host.IsBelow directory place rest := by
  obtain ⟨top, rfl, _⟩ := resolve_eq_ok isBase
  obtain ⟨rest, same⟩ := isRelativeTo_ofPlace.mp below
  exact ⟨rest, top, isBase, same.symm⟩

theorem isBelow_append {directory : FilePath} {rest extra more : List Name}
    (below : host.IsBelow directory place rest)
    (further : host.IsBelow directory (place ++ extra) more) : more = rest ++ extra := by
  obtain ⟨base, isBase, rfl⟩ := below
  obtain ⟨other, isOther, same⟩ := further
  rw [isBase] at isOther
  cases isOther
  rw [append_assoc] at same
  exact (append_cancel_left same).symm

theorem names_below
    (names : host.Names operation path found) : ∃ place rest, found = .ofPlace place ∧
      host.tree.Resolved place ∧ host.IsBelow (host.base operation path) place rest := by
  unfold Names at names
  unfold base
  split at names
  · case _ asset =>
      obtain ⟨parts, top, _, resolved, isBase, below⟩ := packageResource_eq_some names
      obtain ⟨place, rfl, _⟩ := resolve_eq_ok resolved
      obtain ⟨rest, isBelow⟩ := isBelow_of_isRelativeTo isBase below
      rw [if_pos asset]
      exact ⟨place, rest, rfl, resolve_resolved resolved, isBelow⟩
  rename_i notAsset
  obtain ⟨top, isBase, resolved, below⟩ := names
  obtain ⟨place, rfl, _⟩ := resolve_eq_ok resolved
  obtain ⟨rest, isBelow⟩ := isBelow_of_isRelativeTo isBase below
  rw [if_neg notAsset]
  exact ⟨place, rest, rfl, resolve_resolved resolved, isBelow⟩

theorem join_cases (directory : FilePath) (text : Text) :
    directory.join text = { directory with parts := directory.parts ++ pathParts text } ∨
      ∃ root, root ≠ [] ∧ directory.join text = { root := root, parts := pathParts text } := by
  unfold FilePath.join
  split
  · exact .inl rfl
  · exact .inr ⟨_, by decide, rfl⟩
  · exact .inr ⟨_, by decide, rfl⟩

variable {rest : List Name}

theorem mem_pathParts_of_below (linkFree : host.tree.LinkFree) (notAsset : ¬ IsAsset operation path)
    (names : host.Names operation path (.ofPlace place))
    (below : host.IsBelow host.uploadDir place rest) :
    ∀ name ∈ rest, name ∈ pathParts (cleanPath operation path) := by
  unfold Names at names
  rw [if_neg notAsset] at names
  obtain ⟨_, _, resolved, _⟩ := names
  obtain ⟨base, isBase, rfl⟩ := below
  obtain ⟨other, same, walked⟩ := resolve_eq_ok resolved
  cases same
  rcases join_cases host.uploadDir (cleanPath operation path) with joined | ⟨root, nonempty, joined⟩
  · obtain ⟨levels, more⟩ := levels_of_resolve isBase
    obtain ⟨top, same, upTo⟩ := resolve_eq_ok isBase
    cases same
    rw [joined, more] at walked
    change host.tree.realPath (levels + 1) (host.start host.uploadDir)
      (host.uploadDir.parts ++ pathParts (cleanPath operation path)) = _ at walked
    rw [more] at upTo
    rw [realPath_append, upTo] at walked
    exact (realPath_follows linkFree _ _ _ _ walked).mem_of_append (Nat.le_refl _)
  · have start : host.start { root := root, parts := pathParts (cleanPath operation path) } = [] :=
      if_neg nonempty
    rw [joined, start] at walked
    exact (realPath_follows linkFree _ _ _ _ walked).mem_of_append (Nat.zero_le _)

theorem parts_of_below (linkFree : host.tree.LinkFree) (asset : IsAsset operation path)
    (names : host.Names operation path (.ofPlace place))
    (below : host.IsBelow host.packageData place rest) :
    host.safePackageResourceParts (assetName path) = some rest := by
  unfold Names at names
  rw [if_pos asset] at names
  obtain ⟨parts, _, safe, resolved, _⟩ := packageResource_eq_some names
  obtain ⟨base, isBase, rfl⟩ := below
  obtain ⟨other, same, walked⟩ := resolve_eq_ok resolved
  cases same
  obtain ⟨levels, more⟩ := levels_of_resolve isBase
  obtain ⟨top, same, upTo⟩ := resolve_eq_ok isBase
  cases same
  have proper : ∀ part ∈ parts, ¬ (part = [] ∨ part = currentName) ∧ part ≠ parentName := by
    have safely := safe
    unfold safePackageResourceParts at safely
    simp only at safely
    split at safely
    · cases safely
    split at safely
    · cases safely
    rename_i allSafe
    cases safely
    rw [Bool.not_eq_true, any_eq_false] at allSafe
    intro part member
    have isSafe := allSafe part member
    simp only [isUnsafePart, Bool.or_eq_true, decide_eq_true_eq, not_or] at isSafe
    exact ⟨not_or.mpr ⟨isSafe.1.1.1, isSafe.1.1.2⟩, isSafe.1.2⟩
  rw [more] at upTo walked
  change host.tree.realPath (levels + 1) (host.start host.packageData)
    (host.packageData.parts ++ parts) = _ at walked
  rw [realPath_append, upTo] at walked
  have same := realPath_of_names linkFree (levels + 1) base parts proper _ walked
  rw [append_cancel_left same]
  exact safe

theorem isEntryName_index : IsEntryName indexName := by decide

theorem isHiddenName_index : isHiddenName indexName = false := by decide

theorem delivers_cases (delivers : host.Delivers operation found target) :
    ((host.kind found).isSome = true ∧ target = found) ∨
      (operation = .get ∧ host.kind found = some .directory ∧
        (host.kind (indexOf found)).isSome = true ∧ target = indexOf found) := by
  cases operation with
  | get =>
    rcases delivers with ⟨isFile, rfl⟩ | ⟨isDirectory, there, rfl⟩
    · exact .inl ⟨by rw [isFile]; rfl, rfl⟩
    · exact .inr ⟨rfl, isDirectory, there, rfl⟩
  | fetch | smuggle => exact .inl ⟨by rw [delivers.1]; rfl, delivers.2⟩
  | delete clear =>
    obtain ⟨isFile | ⟨isDirectory, _⟩, rfl⟩ := delivers
    · exact .inl ⟨by rw [isFile]; rfl, rfl⟩
    · exact .inl ⟨by rw [isDirectory]; rfl, rfl⟩
  | info => exact .inl delivers

theorem delivered_place (linkFree : host.tree.LinkFree) (resolved : host.tree.Resolved place)
    (delivers : host.Delivers operation (.ofPlace place) target) : ∃ extra,
    host.leadsTo target = some (place ++ extra) ∧ ∀ name ∈ extra, name = indexName := by
  rcases delivers_cases delivers with ⟨there, rfl⟩ | ⟨_, _, there, rfl⟩
  · exact ⟨[], by rw [append_nil]; exact leadsTo_of_kind resolved there, by simp⟩
  have indexed : host.tree.Resolved (place ++ [indexName]) :=
    resolved.append isEntryName_index fun target => linkFree _ target
  exact ⟨[indexName], leadsTo_of_kind indexed there, by simp⟩

theorem rest_visible (linkFree : host.tree.LinkFree) (shown : IsShown operation path)
    (sheltered : Sheltered host operation path) (names : host.Names operation path (.ofPlace place))
    (serves : host.Serves operation (.ofPlace place)) (resolved : host.tree.Resolved place)
    (below : host.IsBelow (host.base operation path) place rest) :
    ∀ name ∈ rest, isHiddenName name = false := by
  intro name member
  unfold base at below
  by_cases asset : IsAsset operation path
  · rw [if_pos asset] at below
    have parts := parts_of_below linkFree asset names below
    exact sheltered.assets linkFree asset _ names serves rest parts name member
  rw [if_neg asset] at below
  have proper : IsEntryName name := by
    obtain ⟨base, _, rfl⟩ := below
    exact resolved.names name (mem_append_right _ member)
  rw [Bool.eq_false_iff]
  intro hidden
  have isPart := mem_pathParts_of_below linkFree asset names below name member
  have apart := sheltered.names linkFree asset _ names serves rest below name member
  unfold cleanPath at isPart
  split at isPart
  · have isIndex : name = indexName := by
      have only : pathParts indexName = [indexName] := by decide
      exact mem_singleton.mp isPart
    rw [isIndex, isHiddenName_index] at hidden
    cases hidden
  · have inPath := mem_splitOn_of_stripSlashes (mem_splitOn_of_uploadRelative isPart)
    rw [isSplitApart_of_shown shown.1 inPath proper hidden] at apart
    cases apart

theorem file_contained (holds : IsShown operation path → Sheltered host operation path)
    (answered : host.answer operation path = .ok target) : ∃ place rest,
    host.leadsTo target = some place ∧ host.IsBelow (host.base operation path) place rest ∧
      (host.tree.LinkFree → ∀ name ∈ rest, isHiddenName name = false) := by
  obtain ⟨shown, found, names, delivers⟩ := names_of_answer answered
  have sheltered := holds shown
  obtain ⟨place, rest, rfl, resolved, below⟩ := names_below names
  have inside : ∃ reached more, host.leadsTo target = some reached ∧
      host.IsBelow (host.base operation path) reached more := by
    rcases delivers_cases delivers with ⟨there, rfl⟩ | ⟨isGet, isDirectory, there, rfl⟩
    · exact ⟨place, rest, leadsTo_of_kind resolved there, below⟩
    obtain ⟨reached, leads⟩ := exists_leadsTo there
    obtain ⟨more, isBelow⟩ := sheltered.index isGet _ reached names isDirectory there leads
    exact ⟨reached, more, leads, isBelow⟩
  obtain ⟨reached, more, leads, isBelow⟩ := inside
  refine ⟨reached, more, leads, isBelow, ?_⟩
  intro linkFree name member
  obtain ⟨extra, straight, onlyIndex⟩ := delivered_place linkFree resolved delivers
  rw [leads] at straight
  cases straight
  rw [isBelow_append below isBelow] at member
  rcases mem_append.mp member with earlier | last
  · exact rest_visible linkFree shown sheltered names ⟨target, delivers⟩ resolved below name earlier
  · rw [onlyIndex name last]
    exact isHiddenName_index

theorem item_contained {directory : FilePath} (resolved : host.tree.Resolved place)
    (isPlace : directory = .ofPlace place) (below : host.IsBelow (host.base .info path) place rest)
    (visible : host.tree.LinkFree → ∀ name ∈ rest, isHiddenName name = false)
    (listed : host.isInfoItem directory name = true) : ∃ reached more,
    host.leadsTo (directory.joinNames [name]) = some reached ∧
      host.IsBelow (host.base .info path) reached more ∧
      (host.tree.LinkFree → ∀ name ∈ more, isHiddenName name = false) := by
  subst isPlace
  unfold isInfoItem at listed
  rw [Bool.and_eq_true, Bool.and_eq_true, Bool.not_eq_true', Bool.not_eq_true'] at listed
  obtain ⟨⟨isThere, notHidden⟩, notLink⟩ := listed
  have found : host.tree.entry (place ++ [name]) ≠ none := Option.isSome_iff_ne_none.mp isThere
  have noLink (target : Text) : host.tree.entry (place ++ [name]) ≠ some (.link target) := by
    intro isLink
    have never : host.isLink (place ++ [name]) = true := by rw [FileHost.isLink, isLink]
    cases never.symm.trans notLink
  have further := resolved.append (host.tree.named place name found) noLink
  refine ⟨place ++ [name], rest ++ [name], ?_, ?_, ?_⟩
  · exact (leadsTo_ofPlace further).trans (if_neg found)
  · obtain ⟨base, isBase, rfl⟩ := below
    exact ⟨base, isBase, append_assoc base rest [name]⟩
  · intro linkFree other member
    rcases mem_append.mp member with earlier | last
    · exact visible linkFree other earlier
    · rw [mem_singleton.mp last]
      exact notHidden

theorem contained_of_sheltered (holds : IsShown operation path → Sheltered host operation path) :
    host.Contained operation path := by
  intro target reaches
  cases reaches with
  | file answered => exact file_contained holds answered
  | @item directory name isInfo answered isDirectory listed =>
    subst isInfo
    obtain ⟨reached, more, leads, below, visible⟩ := file_contained holds answered
    obtain ⟨shown, found, names, delivers⟩ := names_of_answer answered
    obtain ⟨there, rfl⟩ := delivers
    obtain ⟨place, rest, rfl, resolved, _⟩ := names_below names
    rw [leadsTo_of_kind resolved there] at leads
    cases leads
    exact item_contained resolved rfl below visible listed

theorem sheltered_of_contained
    (contained : host.Contained operation path) (shown : IsShown operation path) :
    Sheltered host operation path := by
  have served (linkFree : host.tree.LinkFree) {found : FilePath}
      (names : host.Names operation path found) (serves : host.Serves operation found)
      {rest : List Name} (below : host.IsBelow (host.base operation path) found.parts rest) :
      ∀ name ∈ rest, isHiddenName name = false := by
    obtain ⟨target, delivers⟩ := serves
    obtain ⟨place, _, rfl, resolved, _⟩ := names_below names
    have answered := answer_of_names shown names delivers fun _ => linkFree
    obtain ⟨reached, more, leads, isBelow, visible⟩ := contained target (.file answered)
    obtain ⟨extra, straight, _⟩ := delivered_place linkFree resolved delivers
    rw [straight] at leads
    cases leads
    intro name member
    refine visible linkFree name ?_
    rw [isBelow_append below isBelow]
    exact mem_append_left _ member
  constructor
  case index =>
    intro isGet directory place names isDirectory there leads
    subst isGet
    have answered := answer_of_names shown names (.inr ⟨isDirectory, there, rfl⟩)
      fun isInfo => nomatch isInfo
    obtain ⟨reached, more, leadsThere, below, _⟩ := contained _ (.file answered)
    rw [leads] at leadsThere
    cases leadsThere
    exact ⟨more, below⟩
  case names =>
    intro linkFree notAsset found names serves rest below name member
    rw [Bool.eq_false_iff]
    intro apart
    have isBase : host.base operation path = host.uploadDir := if_neg notAsset
    have visible := served linkFree names serves (isBase ▸ below) name member
    rw [isHiddenName_of_isSplitApart apart] at visible
    cases visible
  case assets =>
    intro linkFree asset found names serves parts safe part member
    obtain ⟨place, rest, rfl, _, below⟩ := names_below names
    have isBase : host.base operation path = host.packageData := if_pos asset
    have same := parts_of_below linkFree asset names (isBase ▸ below)
    rw [safe] at same
    cases same
    exact served linkFree names serves below part member

def uploadsPlace : Place := ["srv".toList, "uploads".toList]

def sampleHost (tree : FileTree) : FileHost where
  tree := tree
  cwd := []
  levels := 1000
  uploadDir := .ofPlace uploadsPlace
  packageData := .ofPlace ["app".toList]
  unquote := id
  cwd_resolved := Resolved.root

def linkedIndex : FileTree :=
  ofEntries
    [(["srv".toList], .directory), (uploadsPlace, .directory),
      (uploadsPlace ++ ["site".toList], .directory),
      (uploadsPlace ++ ["site".toList, indexName], .link "/etc/passwd".toList),
      (["etc".toList], .directory), (["etc".toList, "passwd".toList], .file)]
    (by decide +kernel)

end FileHost

end XFerry.Server
