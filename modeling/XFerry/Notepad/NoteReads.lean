/-
Loads of a note while others write it.

A load reads the ciphertext and, later, the sidecar, without the lock the writers hold.
What it returns was saved together if the files of the note stay as they are from the
first of these reads to the last, and if they belonged together at the first.
-/

import XFerry.Notepad.NoteQuota

namespace XFerry.Notepad

open EventMachine Json Python Function List NotesDirectory

/-! ### The order of a clear -/

theorem listing_sorted (directory : NotesDirectory) :
    directory.listing.Pairwise fun left right => left.name ≤ right.name := by
  have _ : Std.Total fun left right : Entry => left.name ≤ right.name := ⟨fun _ _ => le_total _ _⟩
  have _ : IsTrans Entry fun left right => left.name ≤ right.name :=
    ⟨fun _ _ _ below above => below.trans above⟩
  exact pairwise_insertionSort _ _

theorem ciphertext_first (noteId : NoteId) :
    ¬ (Entry.sidecar noteId).name ≤ (Entry.ciphertext noteId).name := by
  rw [not_le]
  exact append_left_lt (by decide)

/-! ### What can come between the reads -/

namespace Call

def changes : Call → Option NoteId
  | .replaceCiphertext replacement => some replacement.noteId
  | .replaceSidecar replacement => some replacement.noteId
  | .restoreCiphertext replacement => some replacement.noteId
  | .restoreSidecar replacement => some replacement.noteId
  | .unlinkCiphertext noteId => some noteId
  | .unlinkSidecar noteId => some noteId
  | .clearing (entry :: _) _ => some entry.noteId
  | _ => none

def reads : Call → Option NoteId
  | .loadModified noteId _ => some noteId
  | .loadSize noteId _ _ => some noteId
  | .loadSidecar noteId _ _ _ => some noteId
  | _ => none

def Unsettled (noteId : NoteId) : Call → Prop
  | .replaceSidecar replacement => replacement.noteId = noteId
  | .restoreCiphertext replacement => replacement.noteId = noteId
  | .restoreSidecar replacement => replacement.noteId = noteId
  | _ => False

def Irreparable : Call → Prop
  | .restoreCiphertext _ => True
  | .restoreSidecar _ => True
  | .clearing (.ciphertext _ :: _) _ => True
  | .loadSize _ _ _ => True
  | .loadSidecar _ _ _ _ => True
  | _ => False

/-- The call looks whether there is a sidecar to keep, or a backup of one. -/
def KeepsSidecar : Call → Prop
  | .prepare _ _ => True
  | .restoreSidecar _ => True
  | _ => False

end Call

/-- No file of a note is put in place or removed while a load is between its reads of the
note, no load begins to read a note that is unsettled, no failure leaves a file behind or
hides one from a load, and no save misses a sidecar or its backup. -/
def Undisturbed (state : State) : Event → Prop
  | .call _ _ => True
  | .advance thread env =>
    (env.fails = false → ∀ noteId, (state.calls thread).changes = some noteId →
      ∀ other, (state.calls other).reads ≠ some noteId) ∧
    (∀ noteId, state.calls thread = .load noteId →
      ∀ other, ¬ (state.calls other).Unsettled noteId) ∧
    (env.fails = true → ¬ (state.calls thread).Irreparable) ∧
    (env.reads.missesSidecar = true → ¬ (state.calls thread).KeepsSidecar)

/-- Every load that has answered returned what one save has written. -/
def LoadsConsistent (state : State) : Prop :=
  ∀ thread note data, (thread, Answer.loaded note data) ∈ state.answers →
    ∃ pair ∈ state.completed, pair.metadata.summary = note ∧ pair.data = data

/-! ### Pairs in their place -/

structure Stored (directory : NotesDirectory) (completed : List NotePair) (noteId : NoteId)
    (data : Bytes) : Prop where
  ciphertext : ∃ file, directory.ciphertexts.lookup noteId = some file ∧ file.data = data
  pair : ∃ pair ∈ completed, pair.metadata.noteId = noteId ∧ pair.data = data ∧
    directory.sidecars.lookup noteId = some pair.metadata.toJson

structure SameFiles (before after : NotesDirectory) (noteId : NoteId) : Prop where
  ciphertext : after.ciphertexts.lookup noteId = before.ciphertexts.lookup noteId
  sidecar : after.sidecars.lookup noteId = before.sidecars.lookup noteId

theorem SameFiles.refl (directory : NotesDirectory) (noteId : NoteId) :
    SameFiles directory directory noteId := ⟨rfl, rfl⟩

variable {before after : NotesDirectory} {completed more : List NotePair} {noteId : NoteId}

theorem Stored.mono {data : Bytes} (stored : Stored before completed noteId data)
    (same : SameFiles before after noteId) (grows : completed ⊆ more) :
    Stored after more noteId data := by
  obtain ⟨file, found, isData⟩ := stored.ciphertext
  obtain ⟨pair, member, isNote, sameData, sidecar⟩ := stored.pair
  exact ⟨⟨file, same.ciphertext.trans found, isData⟩,
    ⟨pair, grows member, isNote, sameData, same.sidecar.trans sidecar⟩⟩

section Files

variable {directory : NotesDirectory} {noteId other : NoteId}

theorem sameFiles_putCiphertext (file : NoteFile) (different : other ≠ noteId) :
    SameFiles directory (directory.putCiphertext noteId file) other :=
  ⟨by rw [putCiphertext, OrderedDict.lookup_assign, if_neg different], rfl⟩

theorem sameFiles_putSidecar (content : Value) (different : other ≠ noteId) :
    SameFiles directory (directory.putSidecar noteId content) other :=
  ⟨rfl, by rw [putSidecar, OrderedDict.lookup_assign, if_neg different]⟩

theorem sameFiles_unlink (entry : Entry) (different : other ≠ entry.noteId) :
    SameFiles directory (directory.unlink entry) other := by
  cases entry with
  | ciphertext noteId =>
    exact ⟨(OrderedDict.lookup_erase _ _ _).trans (if_neg different), rfl⟩
  | sidecar noteId =>
    exact ⟨rfl, (OrderedDict.lookup_erase _ _ _).trans (if_neg different)⟩

theorem lookup_putCiphertext (file : NoteFile) :
    (directory.putCiphertext noteId file).ciphertexts.lookup noteId = some file := by
  rw [putCiphertext, OrderedDict.lookup_assign, if_pos rfl]

theorem lookup_putSidecar (content : Value) :
    (directory.putSidecar noteId content).sidecars.lookup noteId = some content := by
  rw [putSidecar, OrderedDict.lookup_assign, if_pos rfl]

theorem lookup_unlink_ciphertext :
    (directory.unlink (.ciphertext noteId)).ciphertexts.lookup noteId = none := by
  rw [unlink, OrderedDict.lookup_erase, if_pos rfl]

theorem ciphertext_mem_listing {file : NoteFile}
    (found : directory.ciphertexts.lookup noteId = some file) :
    Entry.ciphertext noteId ∈ directory.listing := by
  rw [listing, mem_insertionSort, mem_append]
  refine .inl (mem_map_of_mem ?_)
  exact mem_map.mpr ⟨(noteId, file), OrderedDict.lookup_eq_some.mp found, rfl⟩

end Files

variable {directory : NotesDirectory} {env : Surroundings} {call : Call} {turn : Turn}

theorem advance_sameFiles {policy : NoteStoragePolicy}
    (taken : advance policy directory env call = some turn)
    (apart : env.fails = false → call.changes ≠ some noteId) :
    SameFiles directory turn.directory noteId := by
  have different {changed : NoteId} (succeeds : ¬ env.fails = true)
      (isChanged : call.changes = some changed) : noteId ≠ changed := by
    rintro rfl
    exact apart (Bool.not_eq_true _ ▸ succeeds) isChanged
  cases call with
  | replaceCiphertext replacement =>
    simp only [advance] at taken
    split at taken
    · cases taken
      exact .refl _ _
    rename_i succeeds
    cases taken
    exact sameFiles_putCiphertext _ (different succeeds rfl)
  | replaceSidecar replacement =>
    simp only [advance] at taken
    split at taken
    · cases taken
      exact .refl _ _
    rename_i succeeds
    cases taken
    exact sameFiles_putSidecar _ (different succeeds rfl)
  | restoreCiphertext replacement =>
    cases taken
    dsimp only
    split
    · exact .refl _ _
    rename_i succeeds
    unfold restoreCiphertext
    split
    · exact sameFiles_putCiphertext _ (different succeeds rfl)
    · exact sameFiles_unlink _ (different succeeds rfl)
  | restoreSidecar replacement =>
    cases taken
    dsimp only [refuse]
    split
    · exact .refl _ _
    rename_i succeeds
    unfold restoreSidecar
    split
    · exact sameFiles_putSidecar _ (different succeeds rfl)
    · exact sameFiles_unlink _ (different succeeds rfl)
  | unlinkCiphertext changed =>
    simp only [advance] at taken
    split at taken
    · cases taken
      exact .refl _ _
    rename_i succeeds
    cases taken
    exact sameFiles_unlink (.ciphertext changed) (different succeeds rfl)
  | unlinkSidecar changed =>
    simp only [advance] at taken
    split at taken
    · cases taken
      exact .refl _ _
    rename_i succeeds
    cases taken
    exact sameFiles_unlink (.sidecar changed) (different succeeds rfl)
  | clearing rest failed =>
    cases rest with
    | nil =>
      cases taken
      exact .refl _ _
    | cons entry rest =>
      simp only [advance] at taken
      split at taken
      · cases taken
        exact .refl _ _
      rename_i succeeds
      cases taken
      exact sameFiles_unlink entry (different succeeds rfl)
  | prepare pair created =>
    simp only [advance] at taken
    split at taken
    all_goals
      cases taken
      exact .refl _ _
  | _ =>
    rw [advance_directory rfl taken]
    exact .refl _ _

/-! ### The invariant -/

/-- The backups of a replacement are a pair that a save has written. -/
def Replacement.BackedUp (completed : List NotePair) (replacement : Replacement) : Prop :=
  ∀ backup, replacement.encBackup = some backup →
    ∃ pair ∈ completed, pair.metadata.noteId = replacement.noteId ∧ pair.data = backup.data ∧
      replacement.metaBackup = some pair.metadata.toJson

def Call.Sound (directory : NotesDirectory) (completed : List NotePair) : Call → Prop
  | .replaceCiphertext replacement => replacement.BackedUp completed
  | .replaceSidecar replacement =>
    replacement.BackedUp completed ∧
      ∃ modified, directory.ciphertexts.lookup replacement.noteId =
        some { data := replacement.pair.data, modified := modified }
  | .restoreCiphertext replacement => replacement.BackedUp completed
  | .restoreSidecar replacement =>
    replacement.BackedUp completed ∧
      ∀ file, directory.ciphertexts.lookup replacement.noteId = some file →
        replacement.encBackup.map NoteFile.data = some file.data
  | .unlinkSidecar noteId => directory.ciphertexts.lookup noteId = none
  | .clearing rest _ =>
    (rest.Pairwise fun left right => left.name ≤ right.name) ∧
      ∀ noteId file, directory.ciphertexts.lookup noteId = some file → .ciphertext noteId ∈ rest
  | .loadModified noteId data => Stored directory completed noteId data
  | .loadSize noteId data _ => Stored directory completed noteId data
  | .loadSidecar noteId data _ size =>
    Stored directory completed noteId data ∧ size = data.length
  | _ => True

theorem Call.Sound.mono (sound : call.Sound before completed) (free : call.holdsLock = false)
    (same : ∀ noteId, call.reads = some noteId → SameFiles before after noteId)
    (grows : completed ⊆ more) : call.Sound after more := by
  cases call with
  | loadModified noteId | loadSize noteId => exact Stored.mono sound (same noteId rfl) grows
  | loadSidecar noteId data fallback size =>
    exact ⟨Stored.mono sound.1 (same noteId rfl) grows, sound.2⟩
  | replaceCiphertext | replaceSidecar | restoreCiphertext | restoreSidecar | unlinkSidecar
  | clearing => cases free
  | _ => trivial

def Paired (directory : NotesDirectory) (completed : List NotePair) (unsettled : NoteId → Prop) :
    Prop :=
  ∀ noteId file, directory.ciphertexts.lookup noteId = some file → ¬ unsettled noteId →
    Stored directory completed noteId file.data

theorem Paired.stored {unsettled : NoteId → Prop} (paired : Paired before completed unsettled)
    {file : NoteFile} (found : after.ciphertexts.lookup noteId = some file)
    (same : SameFiles before after noteId) (settled : ¬ unsettled noteId)
    (grows : completed ⊆ more) : Stored after more noteId file.data :=
  (paired noteId file (same.ciphertext.symm.trans found) settled).mono same grows

section Steps

variable {policy : NoteStoragePolicy} {isSpace : Nat → Bool} {completed : List NotePair}

/-- One step of a call keeps what it knows, and pairs what it settles.  `others` are the
notes that other calls are about to settle: there are none when this one holds the lock. -/
theorem advance_sound {others : NoteId → Prop} (sound : call.Sound directory completed)
    (paired : Paired directory completed fun noteId => others noteId ∨ call.Unsettled noteId)
    (alone : call.holdsLock = true → ∀ noteId, ¬ others noteId)
    (calm : ∀ noteId, call = .load noteId → ¬ others noteId)
    (intact : env.fails = true → ¬ call.Irreparable)
    (keeps : env.reads.missesSidecar = true → ¬ call.KeepsSidecar)
    (taken : advance policy directory env call = some turn) :
    turn.call.Sound turn.directory (turn.completed.toList ++ completed) ∧
      Paired turn.directory (turn.completed.toList ++ completed)
        fun noteId => others noteId ∨ turn.call.Unsettled noteId := by
  have settled {noteId : NoteId} (own : ¬ call.Unsettled noteId) (free : ¬ others noteId) :
      ¬ (others noteId ∨ call.Unsettled noteId) := not_or.mpr ⟨free, own⟩
  cases call with
  | idle => cases taken
  | save request =>
    simp only [advance] at taken
    split at taken
    · cases taken
    split at taken
    all_goals
      cases taken
      exact ⟨trivial, paired⟩
  | delete | loadSidecar =>
    cases taken
    exact ⟨trivial, paired⟩
  | clear =>
    cases taken
    exact ⟨⟨listing_sorted directory, fun noteId file => ciphertext_mem_listing⟩, paired⟩
  | prepare pair created =>
    simp only [advance] at taken
    split at taken
    · cases taken
      exact ⟨trivial, paired⟩
    · cases taken
      refine ⟨?_, paired⟩
      intro backup seen
      have found := lookup_of_seenCiphertext seen
      have keepsSidecar : ¬ env.reads.missesSidecar = true :=
        fun misses => keeps misses trivial
      simp only [seenSidecar, if_neg keepsSidecar]
      exact (paired _ backup found (settled id (alone rfl _))).pair
  | replaceCiphertext replacement =>
    simp only [advance] at taken
    split at taken
    · cases taken
      refine ⟨sound, ?_⟩
      exact fun noteId file found free =>
        paired noteId file found (settled id (alone rfl noteId))
    · cases taken
      refine ⟨⟨sound, env.modified, lookup_putCiphertext _⟩, ?_⟩
      intro noteId file found free
      have different : noteId ≠ replacement.noteId := fun same => free (.inr same.symm)
      exact paired.stored found (sameFiles_putCiphertext _ different)
        (settled id (alone rfl noteId)) (List.Subset.refl _)
  | replaceSidecar replacement =>
    simp only [advance] at taken
    split at taken
    · cases taken
      exact ⟨sound.1, paired⟩
    · cases taken
      refine ⟨trivial, ?_⟩
      intro noteId file found free
      by_cases same : noteId = replacement.noteId
      · obtain ⟨_, modified, written⟩ := sound
        rw [same] at found ⊢
        have isWritten : file = { data := replacement.pair.data, modified := modified } :=
          Option.some.inj (found.symm.trans written)
        refine ⟨⟨file, found, rfl⟩, replacement.pair, mem_cons_self .., rfl, ?_,
          lookup_putSidecar _⟩
        rw [isWritten]
      · exact paired.stored found (sameFiles_putSidecar _ same)
          (settled (fun own => same own.symm) (alone rfl noteId)) (subset_cons_self _ _)
  | restoreCiphertext replacement =>
    cases taken
    have succeeds : ¬ env.fails = true := fun fails => intact fails trivial
    rw [if_neg succeeds]
    constructor
    · refine ⟨sound, ?_⟩
      intro file found
      unfold restoreCiphertext at found
      split at found
      · case h_1 backup seen =>
          have isBackup : replacement.encBackup = some backup := by
            split at seen
            · cases seen
            · exact seen
          rw [lookup_putCiphertext] at found
          cases found
          rw [isBackup]
          rfl
      · rw [lookup_unlink_ciphertext] at found
        cases found
    · intro noteId file found free
      have different : noteId ≠ replacement.noteId := fun same => free (.inr same.symm)
      have same : SameFiles directory
          (directory.restoreCiphertext replacement env.reads env.modified)
          noteId := by
        unfold restoreCiphertext
        split
        · exact sameFiles_putCiphertext _ different
        · exact sameFiles_unlink (.ciphertext _) different
      exact paired.stored found same
        (settled (fun own => different own.symm) (alone rfl noteId)) (List.Subset.refl _)
  | restoreSidecar replacement =>
    cases taken
    have succeeds : ¬ env.fails = true := fun fails => intact fails trivial
    dsimp only [refuse]
    rw [if_neg succeeds]
    have keepsSidecar : ¬ env.reads.missesSidecar = true :=
      fun misses => keeps misses trivial
    refine ⟨trivial, ?_⟩
    intro noteId file found free
    obtain ⟨backedUp, restored⟩ := sound
    by_cases same : noteId = replacement.noteId
    · have unchanged : (directory.restoreSidecar replacement env.reads).ciphertexts =
          directory.ciphertexts := by
        unfold restoreSidecar
        split <;> rfl
      rw [unchanged, same] at found
      obtain ⟨backup, isBackup, sameData⟩ := Option.map_eq_some_iff.mp (restored file found)
      obtain ⟨pair, member, isNote, isData, sidecar⟩ := backedUp backup isBackup
      rw [same]
      refine ⟨⟨file, by rw [unchanged, found], rfl⟩, pair, member, isNote,
        isData.trans sameData, ?_⟩
      simp only [restoreSidecar, if_neg keepsSidecar, sidecar]
      exact lookup_putSidecar _
    · have sameFiles : SameFiles directory
          (directory.restoreSidecar replacement env.reads) noteId := by
        unfold restoreSidecar
        split
        · exact sameFiles_putSidecar _ same
        · exact sameFiles_unlink (.sidecar _) same
      exact paired.stored found sameFiles
        (settled (fun own => same own.symm) (alone rfl noteId)) (List.Subset.refl _)
  | unlinkCiphertext changed =>
    simp only [advance] at taken
    split at taken
    · cases taken
      exact ⟨trivial, paired⟩
    · cases taken
      refine ⟨lookup_unlink_ciphertext, ?_⟩
      intro noteId file found free
      have different : noteId ≠ changed := by
        rintro rfl
        rw [lookup_unlink_ciphertext] at found
        cases found
      exact paired.stored found (sameFiles_unlink (.ciphertext changed) different)
        (settled id (alone rfl noteId)) (List.Subset.refl _)
  | unlinkSidecar changed =>
    simp only [advance] at taken
    split at taken
    · cases taken
      exact ⟨trivial, paired⟩
    · cases taken
      refine ⟨trivial, ?_⟩
      intro noteId file found free
      have different : noteId ≠ changed := by
        rintro rfl
        have absent : directory.ciphertexts.lookup noteId = none := sound
        have present : directory.ciphertexts.lookup noteId = some file := found
        rw [absent] at present
        cases present
      exact paired.stored found (sameFiles_unlink (.sidecar changed) different)
        (settled id (alone rfl noteId)) (List.Subset.refl _)
  | clearing rest failed =>
    cases rest with
    | nil =>
      cases taken
      exact ⟨trivial, paired⟩
    | cons entry rest =>
      obtain ⟨sorted, listed⟩ := sound
      obtain ⟨first, sorted⟩ := pairwise_cons.mp sorted
      have free (noteId : NoteId) : ¬ (others noteId ∨ Call.Unsettled noteId (.clearing
          (entry :: rest) failed)) := settled id (alone rfl noteId)
      simp only [advance] at taken
      split at taken
      · case isTrue fails =>
          cases taken
          refine ⟨⟨sorted, ?_⟩, paired⟩
          intro noteId file found
          rcases mem_cons.mp (listed noteId file found) with rfl | inRest
          · exact absurd trivial (intact fails)
          · exact inRest
      · cases taken
        -- what a clear has left of the notes still has both files
        have later (noteId : NoteId) (file : NoteFile)
            (found : (directory.unlink entry).ciphertexts.lookup noteId = some file) :
            .ciphertext noteId ∈ rest ∧ SameFiles directory (directory.unlink entry) noteId := by
          cases entry with
          | ciphertext changed =>
            have different : noteId ≠ changed := by
              rintro rfl
              rw [lookup_unlink_ciphertext] at found
              cases found
            have same : SameFiles directory (directory.unlink (.ciphertext changed)) noteId :=
              sameFiles_unlink _ different
            refine ⟨?_, same⟩
            have member := listed noteId file (same.ciphertext.symm.trans found)
            refine (mem_cons.mp member).resolve_left ?_
            exact fun isHead => different (congrArg Entry.noteId isHead)
          | sidecar changed =>
            have member : .ciphertext noteId ∈ rest := by
              refine (mem_cons.mp (listed noteId file found)).resolve_left ?_
              exact fun isHead => by cases isHead
            refine ⟨member, sameFiles_unlink _ ?_⟩
            rintro rfl
            exact ciphertext_first noteId (first _ member)
        refine ⟨⟨sorted, fun noteId file found => (later noteId file found).1⟩, ?_⟩
        intro noteId file found _
        exact paired.stored found (later noteId file found).2 (free noteId) (List.Subset.refl _)
  | load noteId =>
    simp only [advance] at taken
    split at taken
    · cases taken
      exact ⟨trivial, paired⟩
    rename_i file read
    cases taken
    have found := env.found_of_read read
    exact ⟨paired noteId file found (settled id (calm noteId rfl)), paired⟩
  | loadModified noteId data =>
    cases taken
    exact ⟨sound, paired⟩
  | loadSize noteId data fallback =>
    cases taken
    refine ⟨⟨sound, ?_⟩, paired⟩
    obtain ⟨file, found, isData⟩ := sound.ciphertext
    have succeeds : ¬ env.fails = true := fun fails => intact fails trivial
    rw [Surroundings.read, if_neg succeeds, found, ← isData]
    rfl

theorem advance_loaded {note : NoteSummary} {data : Bytes} (sound : call.Sound directory completed)
    (intact : env.fails = true → ¬ call.Irreparable)
    (taken : advance policy directory env call = some turn)
    (answered : turn.answer = some (.loaded note data)) :
    ∃ pair ∈ completed, pair.metadata.summary = note ∧ pair.data = data := by
  cases call with
  | loadSidecar noteId found fallback size =>
    cases taken
    obtain ⟨stored, rfl⟩ := sound
    obtain ⟨pair, member, rfl, rfl, sidecar⟩ := stored.pair
    have succeeds : ¬ env.fails = true := fun fails => intact fails trivial
    simp only [Option.some.injEq, Answer.loaded.injEq, Surroundings.read, if_neg succeeds,
      sidecar] at answered
    refine ⟨pair, member, ?_, answered.2⟩
    rw [← answered.1, ← pair.size_eq]
    exact (noteRecord_toJson pair.metadata fallback).symm
  | idle => cases taken
  | save request =>
    simp only [advance] at taken
    split at taken
    · cases taken
    split at taken
    all_goals
      cases taken
      cases answered
  | restoreCiphertext | restoreSidecar | delete | clear | loadModified | loadSize =>
    cases taken
    cases answered
  | clearing rest failed =>
    cases rest with
    | nil =>
      cases taken
      split at answered
      · cases answered
      · cases answered
    | cons entry rest =>
      simp only [advance] at taken
      split at taken
      all_goals
        cases taken
        cases answered
  | _ =>
    simp only [advance] at taken
    split at taken
    all_goals
      cases taken
      cases answered

theorem Call.Unsettled.holdsLock (unsettled : call.Unsettled noteId) : call.holdsLock = true := by
  cases call with
  | replaceSidecar | restoreCiphertext | restoreSidecar | clearing => rfl
  | _ => exact unsettled.elim

structure ReadsSound (state : State) : Prop where
  exclusive : Exclusive state
  sound : ∀ thread, (state.calls thread).Sound state.directory state.completed
  paired : Paired state.directory state.completed fun noteId =>
    ∃ thread, (state.calls thread).Unsettled noteId
  loads : LoadsConsistent state

theorem ReadsSound.starting (paired : Paired directory completed fun _ => False) :
    ReadsSound (State.starting directory completed) :=
  { exclusive := Exclusive.starting directory completed
    sound := fun _ => trivial
    paired := fun noteId file found _ => paired noteId file found id
    loads := fun _ _ _ member => (not_mem_nil member).elim }

theorem begin_sound {request : Request} (started : begin isSpace directory request = .ok call) :
    call.Sound directory completed := by
  cases request with
  | save request now sessionExists =>
    obtain ⟨save, _, rfl⟩ := Ensures.exists_of_map_eq_ok started
    trivial
  | load noteId | delete noteId =>
    obtain ⟨noteId, _, rfl⟩ := Ensures.exists_of_map_eq_ok started
    trivial
  | clear =>
    cases started
    trivial

variable {state : State} {thread : Nat}

theorem begun_readsSound (kept : ReadsSound state) {request : Request}
    (idle : state.calls thread = .idle)
    (exclusive : Exclusive (state.begun thread (begin isSpace state.directory request))) :
    ReadsSound (state.begun thread (begin isSpace state.directory request)) := by
  cases started : begin isSpace state.directory request with
  | error error =>
    refine ⟨kept.exclusive, kept.sound, kept.paired, ?_⟩
    intro other note data member
    rcases mem_cons.mp member with same | earlier
    · cases same
    · exact kept.loads other note data earlier
  | ok call =>
    have sound : call.Sound state.directory state.completed := begin_sound started
    constructor
    case exclusive =>
      rw [started] at exclusive
      exact exclusive
    case sound =>
      intro other
      by_cases same : other = thread
      · simp only [State.begun, same, update_self]
        exact sound
      · simp only [State.begun, update_of_ne same]
        exact kept.sound other
    case paired =>
      intro noteId file found free
      refine kept.paired noteId file found ?_
      rintro ⟨other, unsettled⟩
      have different : other ≠ thread := by
        rintro rfl
        rw [idle] at unsettled
        exact unsettled
      refine free ⟨other, ?_⟩
      simp only [State.begun, update_of_ne different]
      exact unsettled
    case loads => exact kept.loads

theorem turned_readsSound (kept : ReadsSound state)
    (undisturbed : Undisturbed state (.advance thread env))
    (exclusive : Exclusive (state.turned thread turn))
    (advanced : advance policy state.directory env (state.calls thread) = some turn) :
    ReadsSound (state.turned thread turn) := by
  obtain ⟨apart, calm, intact, keeps⟩ := undisturbed
  let others (noteId : NoteId) : Prop :=
    ∃ other, other ≠ thread ∧ (state.calls other).Unsettled noteId
  have paired : Paired state.directory state.completed fun noteId =>
      others noteId ∨ (state.calls thread).Unsettled noteId := by
    intro noteId file found free
    refine kept.paired noteId file found ?_
    rintro ⟨other, unsettled⟩
    by_cases same : other = thread
    · exact free (.inr (same ▸ unsettled))
    · exact free (.inl ⟨other, same, unsettled⟩)
  have alone (holds : (state.calls thread).holdsLock = true) (noteId : NoteId) :
      ¬ others noteId := by
    rintro ⟨other, different, unsettled⟩
    have free := kept.exclusive.holdsLock_other holds different
    rw [unsettled.holdsLock] at free
    cases free
  have calmOthers (noteId : NoteId) (loads : state.calls thread = .load noteId) :
      ¬ others noteId := by
    rintro ⟨other, _, unsettled⟩
    exact calm noteId loads other unsettled
  obtain ⟨sound, stillPaired⟩ :=
    advance_sound (kept.sound thread) paired alone calmOthers intact keeps advanced
  have grows : state.completed ⊆ turn.completed.toList ++ state.completed := subset_append_right _ _
  refine ⟨exclusive, ?_, ?_, ?_⟩
  · intro other
    by_cases same : other = thread
    · simp only [State.turned, same, update_self]
      exact sound
    simp only [State.turned, update_of_ne same]
    cases holds : (state.calls thread).holdsLock with
    | false =>
      obtain ⟨sameDirectory, none⟩ := advance_free holds advanced
      rw [sameDirectory, none]
      exact kept.sound other
    | true =>
      refine (kept.sound other).mono (kept.exclusive.holdsLock_other holds same) ?_ grows
      intro noteId reads
      refine advance_sameFiles advanced ?_
      exact fun succeeds changes => apart succeeds noteId changes other reads
  · intro noteId file found free
    refine stillPaired noteId file found ?_
    rintro (⟨other, different, unsettled⟩ | unsettled)
    · refine free ⟨other, ?_⟩
      simp only [State.turned, update_of_ne different]
      exact unsettled
    refine free ⟨thread, ?_⟩
    simp only [State.turned, update_self]
    exact unsettled
  · intro other note data member
    rcases mem_append.mp member with here | earlier
    · obtain ⟨answer, answered, same⟩ := Option.map_eq_some_iff.mp (Option.mem_toList.mp here)
      cases same
      obtain ⟨pair, isCompleted, isSummary, isData⟩ :=
        advance_loaded (kept.sound thread) intact advanced answered
      exact ⟨pair, grows isCompleted, isSummary, isData⟩
    · obtain ⟨pair, isCompleted, isSummary, isData⟩ := kept.loads other note data earlier
      exact ⟨pair, grows isCompleted, isSummary, isData⟩

variable {event : Event}

theorem step_readsSound {state next : State} (kept : ReadsSound state)
    (undisturbed : Undisturbed state event)
    (taken : step policy isSpace state event = some next) : ReadsSound next := by
  have exclusive := step_exclusive kept.exclusive taken
  rcases step_cases taken with ⟨thread, request, rfl, idle, rfl⟩ |
    ⟨thread, env, turn, rfl, _, advanced, rfl⟩
  · exact begun_readsSound kept idle exclusive
  · exact turned_readsSound kept undisturbed exclusive advanced

/-- In every run whose steps are all undisturbed, each load returns a ciphertext and
metadata that one save has written. -/
theorem run_loadsConsistent {directory : NotesDirectory} {completed : List NotePair}
    {events : List Event} {final : State} (paired : Paired directory completed fun _ => False)
    (undisturbed : Along (step policy isSpace) Undisturbed (State.starting directory completed)
      events)
    (reached : run (step policy isSpace) (State.starting directory completed) events =
      some final) : LoadsConsistent final := by
  have sound : ReadsSound final := by
    refine run_invariant ReadsSound ?_ (ReadsSound.starting paired) undisturbed reached
    exact fun state event next kept calm taken => step_readsSound kept calm taken
  exact sound.loads

def Event.IsPlain (thread : Nat) : Event → Prop
  | .call other _ => other = thread
  | .advance other env =>
    other = thread ∧ env.fails = false ∧ env.reads.missesSidecar = false

theorem undisturbed_of_alone (alone : ∀ other, other ≠ thread → state.calls other = .idle)
    (plain : event.IsPlain thread) : Undisturbed state event := by
  cases event with
  | call other request => trivial
  | advance other env =>
    obtain ⟨rfl, succeeds, sees⟩ := plain
    refine ⟨?_, ?_, ?_, ?_⟩
    · intro _ noteId changes reader reads
      by_cases same : reader = other
      · rw [same] at reads
        cases here : state.calls other <;> simp [here, Call.changes, Call.reads] at changes reads
      · rw [alone reader same] at reads
        cases reads
    · intro noteId loads writer unsettled
      by_cases same : writer = other
      · rw [same, loads] at unsettled
        exact unsettled
      · rw [alone writer same] at unsettled
        exact unsettled
    · intro fails
      rw [succeeds] at fails
      cases fails
    · intro misses
      rw [sees] at misses
      cases misses

theorem step_alone {state next : State}
    (alone : ∀ other, other ≠ thread → state.calls other = .idle) (plain : event.IsPlain thread)
    (taken : step policy isSpace state event = some next) :
    ∀ other, other ≠ thread → next.calls other = .idle := by
  intro other different
  rcases step_cases taken with ⟨acting, request, rfl, _, rfl⟩ | ⟨acting, env, turn, rfl, _, _, rfl⟩
  · have isThread : acting = thread := plain
    rw [isThread]
    cases begin isSpace state.directory request with
    | error error => exact alone other different
    | ok call => exact (update_of_ne different _ _).trans (alone other different)
  · rw [plain.1]
    exact (update_of_ne different _ _).trans (alone other different)

theorem along_undisturbed_of_alone {events : List Event}
    (alone : ∀ other, other ≠ thread → state.calls other = .idle)
    (plain : ∀ event ∈ events, event.IsPlain thread) :
    Along (step policy isSpace) Undisturbed state events := by
  induction events generalizing state with
  | nil => trivial
  | cons event rest ih =>
    rw [forall_mem_cons] at plain
    refine ⟨undisturbed_of_alone alone plain.1, ?_⟩
    cases taken : step policy isSpace state event with
    | none => trivial
    | some next => exact ih (step_alone alone plain.1 taken) plain.2

end Steps

/-! ### A load that is overtaken -/

def unlimited : NoteStoragePolicy := { maxTotalBytes := none, maxNoteCount := none }

def turnOf (thread : Nat) : Event := .advance thread sampleSurroundings

def beginLoad (thread : Nat) : Event := .call thread (.load sampleNoteId.text)

def saveThenLoad : List Event :=
  undisturbedSave 0 65 30 ++ beginLoad 0 :: replicate 4 (turnOf 0)

theorem saveThenLoad_plain : ∀ event ∈ saveThenLoad, event.IsPlain 0 := by
  simp [saveThenLoad, undisturbedSave, Event.IsPlain, turnOf, beginLoad, sampleSurroundings,
    FailingReads.nothing]

theorem saveThenLoad_consistent :
    ∃ final, run (step unlimited isBlank) (State.starting empty []) saveThenLoad =
      some final ∧ LoadsConsistent final := by
  have finishes : (run (step unlimited isBlank) (State.starting empty [])
      saveThenLoad).isSome = true := by
    decide +kernel
  obtain ⟨final, reached⟩ := Option.isSome_iff_exists.mp finishes
  have nothingYet : Paired empty [] fun _ => False := by
    intro noteId file found
    rw [empty, OrderedDict.lookup_empty] at found
    cases found
  refine ⟨final, reached, ?_⟩
  exact run_loadsConsistent nothingYet
    (along_undisturbed_of_alone (fun other _ => rfl) saveThenLoad_plain) reached

def overtakenLoad : List Event :=
  undisturbedSave 0 65 30 ++ [beginLoad 1, turnOf 1] ++ undisturbedSave 2 66 40 ++
    replicate 3 (turnOf 1)

def mixedAnswer : Answer :=
  .loaded
    { noteId := sampleNoteId
      title := [66]
      createdAt := sampleTime.1
      updatedAt := sampleTime.1
      size := 40 }
    (replicate 30 0)

theorem overtakenLoad_mixed :
    ∃ final, run (step unlimited isBlank) (State.starting empty []) overtakenLoad =
      some final ∧ ¬ LoadsConsistent final := by
  have answered : (run (step unlimited isBlank) (State.starting empty [])
      overtakenLoad).map (fun final => final.answers.head?) = some (some (1, mixedAnswer)) := by
    decide +kernel
  obtain ⟨final, reached, last⟩ := Option.map_eq_some_iff.mp answered
  refine ⟨final, reached, ?_⟩
  intro consistent
  obtain ⟨pair, _, isSummary, isData⟩ :=
    consistent 1 _ _ (mem_of_mem_head? (Option.mem_def.mpr last))
  have size := pair.size_eq
  rw [isData] at size
  have claimed := congrArg NoteSummary.size isSummary
  change pair.metadata.size = 40 at claimed
  rw [claimed] at size
  exact absurd size (by decide)

end XFerry.Notepad
