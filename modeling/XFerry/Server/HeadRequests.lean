/-
HEAD: the response to GET without its body, and the files and artifacts it leaves.

The clean-up of a one-shot artifact stays with the response when the body is dropped, so
HEAD uses an artifact up as GET does.
-/

import XFerry.Server.StoredFiles

namespace XFerry.Server

open Python Http Function

/-- Whether the file can be looked at, before and after it is claimed, whether the response
gets to `_send_response`, and whether the file can be unlinked. -/
structure HeadSurroundings where
  statFails : Bool
  setFileFails : Bool
  isSent : Bool
  unlinkFails : Bool

namespace Files

variable (files : Files) (path : FilePath)

/-- `_claim`, of an artifact that can be claimed. -/
def claim : Files := { files with artifact := update files.artifact path (some false) }

def release : Files := { files with artifact := update files.artifact path none }

/-- `path.unlink()`, with an `OSError` passed over. -/
def unlink (fails : Bool) : Files :=
  if files.kind path = some .file ∧ fails = false then
    { files with kind := update files.kind path none }
  else files

def cleanupSmuggleStream (fails : Bool) : Files := (files.unlink path fails).release path

end Files

/-- Where a response takes its body from, and the artifact that its clean-up removes. -/
structure FileAnswer where
  streamPath : Option FilePath
  streamCleanup : Option FilePath

section Processing

variable (uploadDir : FilePath) (files : Files) (env : HeadSurroundings) (request : HTTPRequest)

def isUnmodified (path : FilePath) : Bool :=
  decide (files.etag path ≠ [] ∧ request.header "if-none-match" = some (files.etag path))

/-- `_serve_file`, and what it leaves. -/
def answerFile (path : FilePath) : Except PathFault FileAnswer × Files :=
  let urlPath := stripSlashes request.requestLine.path
  if env.statFails = true then (.error .raised, files)
  else
    match isUploadDescendant uploadDir files path, files.artifact path with
    | .error fault, _ => (.error fault, files)
    | .ok _, some false => (.ok ⟨none, none⟩, files)
    | .ok _, some true =>
      if isUnmodified files request path = true then
        (.ok ⟨none, some path⟩, files.claim path)
      else if env.setFileFails = true then (.error .raised, files.claim path)
      else (.ok ⟨some path, some path⟩, files.claim path)
    | .ok isUserUpload, none =>
      if (urlPath = [] ∨ urlPath = "index.html".toList) ∧ isUserUpload = false then
        (.ok ⟨none, none⟩, files)
      else if isUnmodified files request path = true then (.ok ⟨none, none⟩, files)
      else if env.setFileFails = true then (.error .raised, files)
      else (.ok ⟨some path, none⟩, files)

def answerGet : Except PathFault FileAnswer × Files :=
  if request.requestLine.path = "/metrics".toList then (.ok ⟨none, none⟩, files)
  else
    match resolveGetPath uploadDir files request.requestLine.path with
    | .error .absent => (.ok ⟨none, none⟩, files)
    | .error fault => (.error fault, files)
    | .ok path => answerFile uploadDir files env request path

def answerHead : Except PathFault FileAnswer × Files :=
  let (answer, left) := answerGet uploadDir files env request
  (answer.map fun response => { response with streamPath := none }, left)

/-- The server after a HEAD request: `_send_response` runs the clean-up of what it sends. -/
def processHead : Files :=
  match answerHead uploadDir files env request with
  | (.error _, left) => left
  | (.ok response, left) =>
    match response.streamCleanup with
    | some path =>
      if env.isSent = true then
        left.cleanupSmuggleStream path env.unlinkFails
      else left
    | none => left

/-- The request names an artifact that no other response has claimed. -/
def DesignatesArtifact (path : FilePath) : Prop :=
  request.requestLine.path ≠ "/metrics".toList ∧
    resolveGetPath uploadDir files request.requestLine.path = .ok path ∧
    files.artifact path = some true

def IsAnswered (path : FilePath) : Prop :=
  env.statFails = false ∧ env.isSent = true ∧
    (isUploadDescendant uploadDir files path).isOk = true ∧
    (isUnmodified files request path = true ∨ env.setFileFails = false)

end Processing

def Files.SameBut (path : FilePath) (before after : Files) : Prop :=
  ∃ kind artifact, after =
    { before with
      kind := update before.kind path kind
      artifact := update before.artifact path artifact }

variable {uploadDir : FilePath} {files : Files} {env : HeadSurroundings}
  {request : HTTPRequest} {path : FilePath}

theorem Files.sameBut_refl : Files.SameBut path files files := by
  refine ⟨files.kind path, files.artifact path, ?_⟩
  rw [update_eq_self, update_eq_self]

theorem Files.sameBut_claim : Files.SameBut path files (files.claim path) := by
  refine ⟨files.kind path, some false, ?_⟩
  rw [update_eq_self]
  rfl

theorem Files.sameBut_cleanup (fails : Bool) :
    Files.SameBut path files ((files.claim path).cleanupSmuggleStream path fails) := by
  unfold cleanupSmuggleStream unlink
  split
  · refine ⟨none, none, ?_⟩
    simp only [release, claim, update_idem]
  · refine ⟨files.kind path, none, ?_⟩
    simp only [release, claim, update_idem, update_eq_self]

theorem answerFile_of_unclaimed (unclaimed : files.artifact path ≠ some true) :
    (answerFile uploadDir files env request path).2 = files ∧
      ∀ response, (answerFile uploadDir files env request path).1 = .ok response →
        response.streamCleanup = none := by
  unfold answerFile
  dsimp only
  split
  · exact ⟨rfl, nofun⟩
  split
  · exact ⟨rfl, nofun⟩
  · exact ⟨rfl, fun response same => by cases same; rfl⟩
  · case h_3 isArtifact => exact absurd isArtifact unclaimed
  · split
    · exact ⟨rfl, fun response same => by cases same; rfl⟩
    split
    · exact ⟨rfl, fun response same => by cases same; rfl⟩
    split
    · exact ⟨rfl, nofun⟩
    · exact ⟨rfl, fun response same => by cases same; rfl⟩

theorem processHead_of_answerGet (kept : (answerGet uploadDir files env request).2 = files)
    (noCleanup : ∀ response, (answerGet uploadDir files env request).1 = .ok response →
      response.streamCleanup = none) :
    processHead uploadDir files env request = files := by
  unfold processHead answerHead
  dsimp only
  cases answered : (answerGet uploadDir files env request).1 with
  | error fault => exact kept
  | ok response =>
    dsimp only [Except.map]
    rw [noCleanup response answered]
    exact kept

section

variable (designated : DesignatesArtifact uploadDir files request path)
include designated

theorem answerGet_of_designated :
    answerGet uploadDir files env request = answerFile uploadDir files env request path := by
  obtain ⟨notMetrics, resolved, _⟩ := designated
  unfold answerGet
  rw [if_neg notMetrics, resolved]

theorem sameBut_processHead :
    Files.SameBut path files (processHead uploadDir files env request) := by
  unfold processHead answerHead
  rw [answerGet_of_designated designated]
  unfold answerFile
  rw [designated.2.2]
  by_cases unreadable : env.statFails = true
  · rw [if_pos unreadable]
    exact Files.sameBut_refl
  rw [if_neg unreadable]
  cases isUploadDescendant uploadDir files path with
  | error fault => exact Files.sameBut_refl
  | ok isUserUpload =>
    cases isUnmodified files request path <;> cases env.setFileFails <;>
      cases env.isSent <;>
      first
        | exact Files.sameBut_claim
        | exact Files.sameBut_cleanup _

theorem processHead_of_answered (answered : IsAnswered uploadDir files env request path) :
    processHead uploadDir files env request =
      (files.claim path).cleanupSmuggleStream path env.unlinkFails := by
  obtain ⟨readable, isSent, isDescendant, served⟩ := answered
  unfold processHead answerHead
  rw [answerGet_of_designated designated]
  unfold answerFile
  rw [designated.2.2, readable, isSent]
  cases descendant : isUploadDescendant uploadDir files path with
  | error fault =>
    rw [descendant] at isDescendant
    cases isDescendant
  | ok isUserUpload =>
    cases unmodified : isUnmodified files request path with
    | true => rfl
    | false =>
      rw [unmodified] at served
      rw [served.resolve_left nofun]
      rfl

end

theorem Files.artifact_cleanup (fails : Bool) :
    (files.cleanupSmuggleStream path fails).artifact path = none := update_self ..

theorem Files.kind_cleanup : (files.cleanupSmuggleStream path false).kind path ≠ some .file := by
  unfold cleanupSmuggleStream unlink release
  split
  · dsimp only
    rw [update_self]
    exact nofun
  · case isFalse notFile => exact fun isFile => notFile ⟨isFile, rfl⟩

/-- HEAD changes nothing unless it names an artifact that can be claimed.  Then it changes
nothing about any other path, and the answered request uses the artifact up. -/
theorem processHead_effect (uploadDir : FilePath) (files : Files)
    (env : HeadSurroundings) (request : HTTPRequest) :
    ((∀ path, ¬ DesignatesArtifact uploadDir files request path) →
        processHead uploadDir files env request = files) ∧
      ∀ path, DesignatesArtifact uploadDir files request path →
        Files.SameBut path files (processHead uploadDir files env request) ∧
        (IsAnswered uploadDir files env request path →
          (processHead uploadDir files env request).artifact path = none ∧
          (env.unlinkFails = false →
            (processHead uploadDir files env request).kind path ≠ some .file)) := by
  constructor
  · intro undesignated
    have answered : (answerGet uploadDir files env request).2 = files ∧
        ∀ response, (answerGet uploadDir files env request).1 = .ok response →
          response.streamCleanup = none := by
      unfold answerGet
      split
      · exact ⟨rfl, fun response same => by cases same; rfl⟩
      rename_i notMetrics
      split
      · exact ⟨rfl, fun response same => by cases same; rfl⟩
      · exact ⟨rfl, nofun⟩
      rename_i path resolved
      exact answerFile_of_unclaimed fun isArtifact =>
        undesignated path ⟨notMetrics, resolved, isArtifact⟩
    exact processHead_of_answerGet answered.1 answered.2
  · intro path designated
    refine ⟨sameBut_processHead designated, fun answered => ?_⟩
    rw [processHead_of_answered designated answered]
    refine ⟨Files.artifact_cleanup _, fun unlinks => ?_⟩
    rw [unlinks]
    exact Files.kind_cleanup

def oneShotPath : FilePath := { root := "/".toList, parts := ["up".toList, "a.html".toList] }

def oneShotFiles : Files :=
  { resolve := .ok
    kind := fun path => if path = oneShotPath then some .file else none
    packageResource := fun _ => none
    etag := fun _ => "\"1-1\"".toList
    artifact := fun path => if path = oneShotPath then some true else none }

def oneShotHead : HTTPRequest :=
  { requestLine :=
      { method := "HEAD".toList, rawTarget := "/uploads/a.html".toList,
        rawPath := "/uploads/a.html".toList, path := "/uploads/a.html".toList,
        queryString := [], httpVersion := "HTTP/1.1".toList }
    fields := []
    body := []
    parseError := none }

theorem headArtifact_usedUp :
    ¬ ∀ uploadDir files env request, processHead uploadDir files env request = files := by
  intro unchanged
  have same := unchanged { root := "/".toList, parts := ["up".toList] } oneShotFiles
    ⟨false, false, true, false⟩ oneShotHead
  have gone : (processHead { root := "/".toList, parts := ["up".toList] } oneShotFiles
      ⟨false, false, true, false⟩ oneShotHead).artifact oneShotPath = none := by
    decide +kernel
  rw [same] at gone
  exact absurd gone (by decide +kernel)

end XFerry.Server
