/-
The store of SMUGGLE artifacts: pruning by age, count and bytes, and the write of a new
artifact.

A method of the store holds the coordinator from its listing to its end, so it is one step.
-/

import XFerry.Server.OneShotArtifacts

namespace XFerry.Smuggle

open Python
open Server (isTokenChar smuggleOutputFormats)

variable {Time : Type}

abbrev ArtifactToken := { text : Text // text.length = 16 ∧ text.all isTokenChar = true }

/-- `normalize_extension`, without the dot. -/
def normalizeExtension (unicode : Unicode) (extension : Text) : Option Text :=
  let value := unicode.lower (unicode.strip extension)
  let suffix := if value.head? = some '.' then value.drop 1 else value
  if smuggleOutputFormats.contains suffix = true then some suffix else none

def artifactName (token : ArtifactToken) (suffix : Text) : Text :=
  "smuggle_".toList ++ token.val ++ ['.'] ++ suffix

structure SmuggleTempPolicy (Time : Type) where
  maxAge : Option Time
  maxFileCount : Option Nat
  maxTotalBytes : Option Nat

structure SmuggleTempArtifact (Time : Type) where
  name : Text
  size : Nat
  mtime : Time
deriving DecidableEq

/-- The regular files with names of artifacts, in the order of `iterdir`, and the names that
other entries have; and the paths that are registered and claimed. -/
structure ArtifactStore (Time : Type) where
  artifacts : List (SmuggleTempArtifact Time)
  distinct : (artifacts.map SmuggleTempArtifact.name).Nodup
  others : Text → Bool
  registered : Text → Bool
  claimed : Text → Bool

namespace ArtifactStore

variable (store : ArtifactStore Time) (name : Text)

def isTaken : Bool :=
  store.others name || (store.artifacts.map SmuggleTempArtifact.name).contains name

def totalBytes (artifacts : List (SmuggleTempArtifact Time)) : Nat :=
  (artifacts.map SmuggleTempArtifact.size).sum

def unlink : ArtifactStore Time :=
  { store with
    artifacts := store.artifacts.filter fun artifact => artifact.name ≠ name
    distinct := (List.filter_sublist.map _).nodup store.distinct }

def discard : ArtifactStore Time :=
  { store with
    registered := Function.update store.registered name false
    claimed := Function.update store.claimed name false }

def add : ArtifactStore Time :=
  { store with registered := Function.update store.registered name true }

theorem not_mem_names (free : ¬ store.isTaken name = true) :
    name ∉ store.artifacts.map SmuggleTempArtifact.name := by
  intro member
  refine free ?_
  rw [isTaken, Bool.or_eq_true, List.contains_iff_mem]
  exact .inr member

def create (artifact : SmuggleTempArtifact Time) (free : ¬ store.isTaken artifact.name = true) :
    ArtifactStore Time :=
  { store with
    artifacts := store.artifacts ++ [artifact]
    distinct := by
      rw [List.map_append, List.map_singleton, ← List.concat_eq_append]
      exact store.distinct.concat (store.not_mem_names artifact.name free) }

def forget (gone : Text → Bool) : ArtifactStore Time :=
  { store with
    registered := fun name => store.registered name && !gone name
    claimed := fun name => store.claimed name && !gone name }

end ArtifactStore

/-- What reading the status of a path comes to. -/
inductive Look where
  | read
  /-- `is_file` answers False of the file, which is skipped. -/
  | skipped
  /-- An `OSError`: the path is skipped and forgotten. -/
  | lost
deriving DecidableEq

/-- What a listing of the directory meets. -/
structure Listing where
  fails : Bool
  look : Text → Look

/-- The artifacts that `_artifacts_locked` returns: none, where it cannot list them. -/
def listed (listing : Listing) (store : ArtifactStore Time) : List (SmuggleTempArtifact Time) :=
  if listing.fails = true then []
  else store.artifacts.filter fun artifact => listing.look artifact.name = .read

def isForgotten (listing : Listing) (store : ArtifactStore Time) (name : Text) : Bool :=
  !listing.fails && store.isTaken name && decide (listing.look name = .lost)

def artifactsLocked (listing : Listing) (store : ArtifactStore Time) :
    List (SmuggleTempArtifact Time) × ArtifactStore Time :=
  (listed listing store, store.forget (isForgotten listing store))

variable [LinearOrder Time] [Sub Time]

inductive Removal where
  | unlinked
  /-- `is_file` answers False of the file. -/
  | skipped
  | failed

def removeLocked (removal : Text → Removal) (artifact : SmuggleTempArtifact Time)
    (store : ArtifactStore Time) : ArtifactStore Time :=
  if store.claimed artifact.name = true then store
  else
    match removal artifact.name with
    | .unlinked => (store.unlink artifact.name).discard artifact.name
    | .skipped => store.discard artifact.name
    | .failed => store

def exceedsLimit (limit : Option Nat) (amount : Nat) : Bool :=
  match limit with
  | none => false
  | some limit => limit < amount

/-- `_projection_exceeds`, of a number of files and their bytes. -/
def projectionExceeds (policy : SmuggleTempPolicy Time) (count total : Nat) : Bool :=
  exceedsLimit policy.maxFileCount count || exceedsLimit policy.maxTotalBytes total

def isExpired (policy : SmuggleTempPolicy Time) (now : Time) (store : ArtifactStore Time)
    (artifact : SmuggleTempArtifact Time) : Bool :=
  match policy.maxAge with
  | none => false
  | some maxAge => decide (maxAge < now - artifact.mtime) && !store.claimed artifact.name

def expireFrom (policy : SmuggleTempPolicy Time) (now : Time) (removal : Text → Removal) :
    List (SmuggleTempArtifact Time) → ArtifactStore Time →
      List (SmuggleTempArtifact Time) × ArtifactStore Time
  | [], store => ([], store)
  | artifact :: rest, store =>
    if isExpired policy now store artifact = true then
      expireFrom policy now removal rest (removeLocked removal artifact store)
    else
      let (fresh, pruned) := expireFrom policy now removal rest store
      (artifact :: fresh, pruned)

def evictFrom (policy : SmuggleTempPolicy Time) (removal : Text → Removal)
    (pendingBytes pendingFiles : Nat) :
    Nat → List (SmuggleTempArtifact Time) → ArtifactStore Time →
      List (SmuggleTempArtifact Time) × ArtifactStore Time
  | 0, _, store => ([], store)
  | rounds + 1, artifacts, store =>
    if artifacts ≠ [] ∧ projectionExceeds policy (artifacts.length + pendingFiles)
        (ArtifactStore.totalBytes artifacts + pendingBytes) = true then
      match artifacts.findIdx? fun artifact => !store.claimed artifact.name with
      | none => ([], store)
      | some index =>
        match artifacts[index]? with
        | none => ([], store)
        | some oldest =>
          let (evicted, pruned) :=
            evictFrom policy removal pendingBytes pendingFiles rounds
              (artifacts.eraseIdx index) (removeLocked removal oldest store)
          (oldest :: evicted, pruned)
    else ([], store)

/-- What a pruning has listed as fresh and taken for eviction, and the store that it leaves. -/
structure Pruning (Time : Type) where
  fresh : List (SmuggleTempArtifact Time)
  evicted : List (SmuggleTempArtifact Time)
  store : ArtifactStore Time

/-- What the calls of a pruning come to. -/
structure PruningCalls where
  listing : Listing
  removal : Text → Removal

/-- `_cleanup_locked`, unless everything is removed. -/
def cleanupLocked (policy : SmuggleTempPolicy Time) (now : Time) (calls : PruningCalls)
    (pendingBytes pendingFiles : Nat) (store : ArtifactStore Time) : Pruning Time :=
  let (artifacts, known) := artifactsLocked calls.listing store
  let (fresh, current) := expireFrom policy now calls.removal artifacts known
  let sorted := fresh.insertionSort fun left right => left.mtime ≤ right.mtime
  let (evicted, pruned) :=
    evictFrom policy calls.removal pendingBytes pendingFiles sorted.length sorted current
  { fresh := sorted, evicted := evicted, store := pruned }

/-- `_cleanup_locked` with `remove_all`. -/
def removeAllLocked (calls : PruningCalls) (store : ArtifactStore Time) : ArtifactStore Time :=
  let (artifacts, known) := artifactsLocked calls.listing store
  artifacts.foldl (fun current artifact => removeLocked calls.removal artifact current) known

/-- `SmuggleTempQuotaExceeded`, with the numbers of its message. -/
inductive QuotaExceeded where
  | files (current limit : Nat)
  | bytes (current attempted limit : Nat)
deriving DecidableEq

inductive WriteError where
  | invalidExtension
  | quotaExceeded (denial : QuotaExceeded)
  | osError
  | fileExists
deriving DecidableEq

def deniedBy (limit : Option Nat) (projected : Nat) (denial : Nat → QuotaExceeded) :
    Option QuotaExceeded :=
  match limit with
  | none => none
  | some limit => if limit < projected then some (denial limit) else none

/-- The checks of `_ensure_capacity_locked`, of what it lists after its pruning. -/
def checkCapacity (policy : SmuggleTempPolicy Time) (pendingBytes : Nat)
    (artifacts : List (SmuggleTempArtifact Time)) : Option QuotaExceeded :=
  let currentBytes := ArtifactStore.totalBytes artifacts
  let currentFiles := artifacts.length
  (deniedBy policy.maxFileCount (currentFiles + 1) (.files currentFiles)).or
    (deniedBy policy.maxTotalBytes (currentBytes + pendingBytes)
      (.bytes currentBytes pendingBytes))

structure WriteSurroundings (Time : Type) where
  now : Time
  mtime : Time
  makesDirectory : Bool
  pruning : PruningCalls
  /-- The listing of the capacity check. -/
  checking : Listing
  unlinkFails : Text → Bool
  token : Nat → ArtifactToken
  openFails : Nat → Bool
  writeFails : Nat → Bool
  /-- The size of a file whose writing fails. -/
  torn : Nat → Nat

def unlinkSafe (unlinkFails : Text → Bool) (name : Text) (store : ArtifactStore Time) :
    ArtifactStore Time :=
  if unlinkFails name = true then store else store.unlink name

def reserveFrom (env : WriteSurroundings Time) (suffix : Text) (length : Nat) :
    Nat → Nat → ArtifactStore Time → Except WriteError Text × ArtifactStore Time
  | 0, _, store => (.error .fileExists, store)
  | left + 1, attempt, store =>
    let name := artifactName (env.token attempt) suffix
    if env.openFails attempt = true then
      (.error .osError, unlinkSafe env.unlinkFails name store)
    else if taken : store.isTaken name = true then
      reserveFrom env suffix length left (attempt + 1) store
    else if env.writeFails attempt = true then
      let torn : SmuggleTempArtifact Time :=
        { name := name, size := env.torn attempt, mtime := env.mtime }
      (.error .osError, unlinkSafe env.unlinkFails name (store.create torn taken))
    else
      let artifact : SmuggleTempArtifact Time :=
        { name := name, size := length, mtime := env.mtime }
      (.ok name, (store.create artifact taken).add name)

def maxAttempts : Nat := 64

structure WriteOutcome (Time : Type) where
  result : Except WriteError Text
  pruning : Pruning Time
  store : ArtifactStore Time

def untouched (store : ArtifactStore Time) : Pruning Time :=
  { fresh := [], evicted := [], store := store }

def write (unicode : Unicode) (policy : SmuggleTempPolicy Time)
    (env : WriteSurroundings Time) (extension : Text) (length : Nat)
    (store : ArtifactStore Time) : WriteOutcome Time :=
  match normalizeExtension unicode extension with
  | none => { result := .error .invalidExtension, pruning := untouched store, store := store }
  | some suffix =>
    if env.makesDirectory = false then
      { result := .error .osError, pruning := untouched store, store := store }
    else
      let pruning := cleanupLocked policy env.now env.pruning length 1 store
      let (artifacts, known) := artifactsLocked env.checking pruning.store
      match checkCapacity policy length artifacts with
      | some denial =>
        { result := .error (.quotaExceeded denial)
          pruning := pruning
          store := known }
      | none =>
        let (result, written) := reserveFrom env suffix length maxAttempts 0 known
        { result := result, pruning := pruning, store := written }

end XFerry.Smuggle
