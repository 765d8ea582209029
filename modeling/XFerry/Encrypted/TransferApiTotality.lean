/-
Which requests make a handler of encrypted transfers raise.

Four things escape: the number of a chunk has more digits than `int` converts, a JSON
body nests too deep, an error names a member whose name has a lone surrogate, and the
decrypted metadata nests too deep.  Failures of the storage itself are left aside.
-/

import XFerry.Encrypted.TransferApi

namespace XFerry.TransferApi

open CrashProgram Program Http Json Python List
open Encrypted hiding Bytes

variable {Time : Type} {α β : Type}

def IsIoFailure : StorageError → Prop
  | .os _ | .corrupt _ => True
  | _ => False

def Escape.IsIo : Escape → Prop
  | .storage failure => IsIoFailure failure
  | _ => False

/-- A response, or a storage that failed. -/
def Answers (outcome : Except Escape Response) : Prop :=
  match outcome with
  | .ok _ => True
  | .error escape => escape.IsIo

def Escapes (program : Handler Time α) (world : World Time) : Prop :=
  ∃ escape, (program.final world).1 = .error escape ∧ ¬ escape.IsIo

variable {world : World Time}

theorem answers_iff {program : Handler Time Response} :
    Answers (program.final world).1 ↔ ¬ Escapes program world := by
  unfold Answers Escapes
  cases (program.final world).1 with
  | ok | error => simp

/-- No state makes the program raise anything but failures of the storage. -/
def Quiet (program : Handler Time α) : Prop := ∀ world, ¬ Escapes program world

theorem quiet_pure (value : α) : Quiet (pure value : Handler Time α) := by
  rintro world ⟨escape, raised, _⟩
  cases raised

theorem quiet_inspect (view : World Time → α) : Quiet (inspect view : Handler Time α) := by
  rintro world ⟨escape, raised, _⟩
  cases raised

theorem escapes_raise {escape : Escape} :
    Escapes (raise escape : Handler Time α) world ↔ ¬ escape.IsIo := by
  constructor
  · rintro ⟨other, raised, escaped⟩
    cases raised
    exact escaped
  · exact fun escaped => ⟨escape, rfl, escaped⟩

variable {program : Handler Time α} {next : α → Handler Time β}

theorem escapes_bind :
    Escapes (program >>= next) world ↔
      Escapes program world ∨ ∃ value middle, program.final world = (.ok value, middle) ∧
        Escapes (next value) middle := by
  unfold Escapes
  cases first : program.final world with
  | mk answer middle =>
    cases answer with
    | ok value =>
      rw [final_bind_of_ok first]
      constructor
      · exact fun escaped => .inr ⟨value, middle, rfl, escaped⟩
      · rintro (⟨escape, raised, _⟩ | ⟨other, last, same, escaped⟩)
        · cases raised
        · cases same
          exact escaped
    | error error =>
      rw [final_bind_of_error first]
      constructor
      · rintro ⟨escape, raised, escaped⟩
        cases raised
        exact .inl ⟨_, rfl, escaped⟩
      · rintro (⟨escape, raised, escaped⟩ | ⟨other, last, same, _⟩)
        · cases raised
          exact ⟨_, rfl, escaped⟩
        · cases same

theorem Quiet.bind (first : Quiet program)
    (rest : ∀ value, Quiet (next value)) : Quiet (program >>= next) := by
  intro world escaped
  rcases escapes_bind.mp escaped with here | ⟨value, middle, _, there⟩
  · exact first world here
  · exact rest value middle there

theorem not_escapes_bind (first : ¬ Escapes program world)
    (rest : ∀ value middle, program.final world = (.ok value, middle) →
      ¬ Escapes (next value) middle) : ¬ Escapes (program >>= next) world := by
  intro escaped
  rcases escapes_bind.mp escaped with here | ⟨value, middle, returned, there⟩
  · exact first here
  · exact rest value middle returned there

theorem Quiet.ite {condition : Prop} [Decidable condition] {left right : Handler Time α}
    (ifTrue : condition → Quiet left) (ifFalse : ¬ condition → Quiet right) :
    Quiet (if condition then left else right) := by
  by_cases holds : condition
  · rw [if_pos holds]
    exact ifTrue holds
  · rw [if_neg holds]
    exact ifFalse holds

variable {computation : Except PythonException α}

theorem escapes_building : Escapes (building computation) world ↔ ¬ Succeeds computation := by
  unfold Escapes building
  cases computation with
  | ok value =>
    refine iff_of_false ?_ (not_not.mpr ⟨value, rfl⟩)
    rintro ⟨escape, raised, _⟩
    cases raised
  | error exception => exact iff_of_true ⟨_, rfl, id⟩ (Succeeds.not_error exception)

variable {world last : World Time}

theorem building_returned
    {value : α} (returned : (building computation).final world = (.ok value, last)) :
    computation = .ok value ∧ last = world := by
  unfold building at returned
  cases computation with
  | ok other =>
    cases returned
    exact ⟨rfl, rfl⟩
  | error exception => cases returned

theorem answering_quiet {payload : List (String × Payload)}
    (encodes : ∀ member ∈ payload, member.2.HasEncoding) (status : Nat) :
    Quiet (answering payload status : Handler Time Response) := by
  intro world
  rw [answering, escapes_building, not_not, jsonResponse_succeeds, hasEncoding_ofMembers]
  exact encodes

variable {code message : String} {field : Option Str} {details : List (String × Payload)}

section

variable (text : IsErrorText code (str message.toList))
include text

theorem encryptedError_escapes {status : Nat} :
    Escapes (encryptedError status code message field details) world ↔
      ¬ ((∀ name ∈ field, HasEncoding name) ∧ ∀ detail ∈ details, detail.2.HasEncoding) := by
  rw [encryptedError, escapes_building, errorResponse_eq text, jsonResponse_succeeds,
    errorPayload_hasEncoding, and_iff_right (hasEncoding_str _)]

theorem encryptedError_quiet (status : Nat) (named : ∀ name ∈ field, HasEncoding name)
    (detailed : ∀ detail ∈ details, detail.2.HasEncoding) :
    Quiet (encryptedError status code message field details : Handler Time Response) := by
  intro world
  rw [encryptedError_escapes text, not_not]
  exact ⟨named, detailed⟩

theorem plainError_quiet (status : Nat) (name : String) :
    Quiet (encryptedError status code message (some (str name.toList)) [] :
      Handler Time Response) := by
  refine encryptedError_quiet text status ?_ (forall_mem_nil _)
  rintro other ⟨⟩
  exact hasEncoding_str _

end

theorem encryptedNotFound_quiet : Quiet (encryptedNotFound : Handler Time Response) :=
  plainError_quiet ⟨by decide, by decide⟩ 404 "id"

theorem encryptedInvalidField_escapes {name : Str} :
    Escapes (encryptedInvalidField name) world ↔ ¬ HasEncoding name := by
  rw [encryptedInvalidField, encryptedError_escapes ⟨by decide, by decide⟩]
  simp

theorem invalidNamed_quiet (name : String) : Quiet (invalidNamed name : Handler Time Response) := by
  intro world
  rw [invalidNamed, encryptedInvalidField_escapes, not_not]
  exact hasEncoding_str _

theorem encryptedDecryptionFailed_quiet :
    Quiet (encryptedDecryptionFailed : Handler Time Response) :=
  encryptedError_quiet ⟨by decide, by decide⟩ 422 nofun (forall_mem_nil _)

theorem encryptedMethodNotAllowed_quiet (method : Text) (allowed : List String) :
    Quiet (encryptedMethodNotAllowed method allowed : Handler Time Response) := by
  refine Quiet.bind ?_ fun response => quiet_pure _
  refine encryptedError_quiet ⟨by decide, by decide⟩ 405 nofun ?_
  rw [forall_mem_cons, forall_mem_singleton]
  refine ⟨hasEncoding_ofText method, hasEncoding_list.mpr ?_⟩
  rw [forall_mem_map]
  exact fun name _ => hasEncoding_ofText _

theorem notFound_quiet (path : Text) : Quiet (notFound path : Handler Time Response) := by
  intro world
  rw [notFound, escapes_building, not_not, errorResponse_eq, jsonResponse_succeeds,
    errorPayload_hasEncoding]
  · refine ⟨hasEncoding_str _, ?_, ?_⟩
    · rintro other ⟨⟩
      exact hasEncoding_str _
    · rw [forall_mem_singleton]
      exact hasEncoding_ofText _
  · exact ⟨by decide, by simp [str]⟩

variable {last : World Time}

section Calls

theorem outcomeOf_quiet (action : Action Time α) : Quiet (outcomeOf action) := by
  rintro world ⟨escape, raised, _⟩
  cases raised

variable {action : Action Time α}

theorem outcomeOf_returned {outcome : Except StorageError α}
    (returned : (outcomeOf action).final world = (.ok outcome, last)) :
    action.final world = (outcome, last) := by
  cases returned
  rfl

theorem calling_quiet_of
    (harmless : ∀ error last, action.final world = (.error error, last) → IsIoFailure error) :
    ¬ Escapes (calling action) world := by
  refine not_escapes_bind (outcomeOf_quiet action world) fun outcome middle returned => ?_
  have ended := outcomeOf_returned returned
  cases outcome with
  | ok value => exact quiet_pure value middle
  | error error =>
    rw [escapes_raise, not_not]
    exact harmless error middle ended

theorem calling_returned {value : α} (returned : (calling action).final world = (.ok value, last)) :
    action.final world = (.ok value, last) := by
  obtain ⟨outcome, middle, called, rest⟩ := bind_returned returned
  have ended := outcomeOf_returned called
  cases outcome with
  | ok result =>
    cases rest
    exact ended
  | error error => cases rest

theorem calling_quiet_of_contract {passes requires : World Time → Prop}
    {returns : α → World Time → Prop}
    (contract : Contract passes requires action returns fun _ _ => False) (start : requires world) :
    ¬ Escapes (calling action) world :=
  calling_quiet_of fun _ _ raised => (contract.of_raised start raised).elim

theorem deleteLocked_raisesOnly (fileId : FileId) (cause : Cause Time) :
    (deleteLocked fileId cause).RaisesOnly fun _ => False := by
  refine .bind (.inspect _) fun slot => .bind (.record _) fun _ => ?_
  exact .pure _

theorem calling_quiet_of_raisesOnly
    (raisesOnly : action.RaisesOnly IsIoFailure) : Quiet (calling action) := by
  intro world
  refine calling_quiet_of fun error last raised => ?_
  exact raisesOnly world error (congrArg Prod.fst raised)

variable [LinearOrder Time] [Sub Time] {service : Service Time} {world : World Time}

theorem get_quiet (settled : Settled service world) (env : Environment Time)
    (fileId : FileId) : ¬ Escapes (calling (get service env fileId)) world :=
  calling_quiet_of_contract (contract_get env) settled

variable {raises : StorageError → World Time → Prop}

theorem contract_listFiles (env : Environment Time) (status : Option Status) :
    Contract (Sound service) (Settled service) (listFiles service env status)
      (fun _ => Settled service) raises := by
  refine .bind _ (contract_expireIncompleteLocked env.sweep) fun _ => ?_
  exact (contract_listFilesLocked status).weaken (fun _ settled => settled)
    (fun _ _ listed => listed.2.1) fun _ _ raised => raised

theorem contract_storageCapacity (circumstances : Circumstances Time) :
    Contract (Sound service) (Settled service) (storageCapacity service circumstances)
      (fun payload _ => payload = capacityPayload circumstances) raises := by
  refine .bind _ (contract_expireIncompleteLocked circumstances.capacitySweep) fun _ => ?_
  exact .pure fun _ _ => rfl

def IsChunkError : StorageError → Prop
  | .validation _ | .conflict _ | .os _ | .corrupt _ => True
  | .notFound _ | .incomplete _ | .quotaExceeded _ => False

def IsCreateError : StorageError → Prop
  | .validation _ | .conflict _ | .os _ | .corrupt _ | .quotaExceeded _ => True
  | .notFound _ | .incomplete _ => False

section

omit [LinearOrder Time] [Sub Time]

theorem writeState_raisesOnly {allowed : StorageError → Prop}
    (validation : ∀ message, allowed (.validation message)) (record : Record Time) :
    (writeState service record).RaisesOnly allowed := by
  unfold writeState
  split
  · exact .raise (validation _)
  · exact .bind (.durable _) fun _ => .durable _

theorem createSizedFile_raisesOnly (env : Environment Time) (fileId : FileId)
    (size : Nat) : (createSizedFile env fileId size).RaisesOnly IsCreateError := by
  refine .bind (.inspect _) fun slot => ?_
  split
  · exact .raise trivial
  refine .bind (.durable _) fun _ => ?_
  split
  · exact .durable _
  · exact .raise trivial

theorem createData_raisesOnly (env : Environment Time) (created : Record Time) :
    (createData service env created).RaisesOnly IsCreateError := by
  refine .bind (.record _) fun _ => .cleaningUp ?_ ?_
  · exact .bind (createSizedFile_raisesOnly env _ _) fun _ =>
      writeState_raisesOnly (fun _ => trivial) created
  · exact .bind (.durable _) fun _ => .durable _

end

theorem get_returns (env : Environment Time) (fileId : FileId) :
    Contract (Sound service) (Settled service) (get service env fileId)
      (fun answer => Focus (SettledAt service) fileId (Looked service fileId answer))
      fun _ _ => False :=
  contract_get env

variable {env : Environment Time} {error : StorageError} {fileId : FileId}

theorem requireFile_raised (settled : Settled service world)
    (raised : (requireFile service env fileId).final world = (.error error, last)) :
    ∃ message, error = .notFound message := by
  rcases bind_raised raised with first | ⟨answer, middle, _, rest⟩
  · exact ((get_returns env fileId).of_raised settled first).elim
  · cases answer with
    | none =>
      cases rest
      exact ⟨_, rfl⟩
    | some record => cases rest

theorem create_raised (settled : Settled service world) {manifest : Manifest}
    (raised : (create service env manifest).final world = (.error error, last)) :
    IsCreateError error := by
  have sweep : Contract (Sound service) (Settled service)
      (expireIncompleteLocked service env.sweep) (fun _ => Settled service)
      fun _ _ => False := contract_expireIncompleteLocked env.sweep
  rcases bind_raised raised with first | ⟨_, middle, swept, rest⟩
  · exact (sweep.of_raised settled first).elim
  have between := sweep.of_returned settled swept
  rcases bind_raised rest with second | ⟨answer, found, _, final⟩
  · exact ((get_returns env manifest.fileId).of_raised between second).elim
  refine (?_ : Program.RaisesOnly IsCreateError _) found error (congrArg Prod.fst final)
  cases answer with
  | some existing =>
    dsimp only
    split
    · exact .raise trivial
    · exact .pure _
  | none =>
    dsimp only
    split
    · exact .raise trivial
    refine .bind (.inspect _) fun slot => ?_
    split
    · exact .raise trivial
    split
    · exact .raise trivial
    · exact .bind (createData_raisesOnly env _) fun _ => .pure _

omit [LinearOrder Time] [Sub Time] in
theorem confirmChunk_raisesOnly (record : Record Time) (existing offered : StoredChunk)
    (ciphertext : Bytes) (data : Option Bytes) :
    (confirmChunk record existing offered ciphertext data).RaisesOnly IsChunkError := by
  unfold confirmChunk
  cases data with
  | none => exact .raise trivial
  | some data =>
    dsimp only
    split
    · exact .raise trivial
    split
    · exact .pure _
    · exact .raise trivial

omit [Sub Time] in
theorem storeChunk_raisesOnly (env : Environment Time) (record : Record Time)
    (offered : StoredChunk) (ciphertext : Bytes) (data : Option Bytes) :
    (storeChunk service env record offered ciphertext data).RaisesOnly IsChunkError := by
  unfold storeChunk
  cases data with
  | none => exact .raise trivial
  | some data =>
    dsimp only
    split
    · exact .raise trivial
    · refine .bind (.tearable _ _) fun _ => ?_
      exact .bind (writeState_raisesOnly (fun _ => trivial) _) fun _ => .pure _

theorem writeChunk_raised (settled : Settled service world) {index : Int}
    {ciphertext resumeMac : Bytes}
    (raised : (writeChunk service env fileId index ciphertext resumeMac).final world =
      (.error error, last)) :
    IsChunkError error ∨ ∃ message, error = .notFound message := by
  unfold writeChunk at raised
  split at raised
  · cases raised
    exact .inl trivial
  rcases bind_raised raised with first | ⟨record, middle, _, rest⟩
  · exact .inr (requireFile_raised settled first)
  refine .inl ((?_ : Program.RaisesOnly IsChunkError _) middle error (congrArg Prod.fst rest))
  refine .bind (.lift fun failure failed => ?_) fun expectedLength => ?_
  · unfold Manifest.encryptedChunkLength at failed
    split at failed
    · cases failed
      trivial
    · cases failed
  · split
    · exact .raise trivial
    refine .bind (.inspect _) fun slot => ?_
    split
    · exact confirmChunk_raisesOnly _ _ _ _ _
    split
    · exact .raise trivial
    · exact storeChunk_raisesOnly env _ _ _ _

theorem complete_raised (settled : Settled service world)
    (raised : (complete service env fileId).final world = (.error error, last)) :
    (∃ message, error = .notFound message) ∨ ∃ message, error = .incomplete message := by
  rcases bind_raised raised with first | ⟨record, middle, found, rest⟩
  · exact .inl (requireFile_raised settled first)
  have focus := (contract_requireFile env).of_returned settled found
  have wellFormed := focus.2.intact.wellFormed
  split at rest
  · cases rest
  rename_i notComplete
  split at rest
  · cases rest
    exact .inr ⟨_, rfl⟩
  rename_i all
  have publish : Contract (Sound service)
      (Focus (SettledAt service) fileId (Kept service fileId record))
      (do
        let committing ← beginCommit service env record
        let completed ← publishCommittingLocked service env.publish committing
        return (completed, true))
      (fun _ _ => True) fun _ _ => False := by
    have safe := ItemProperty.safe_settledAt service
    refine .bind _ (contract_beginCommit env safe wellFormed notComplete
      (not_not.mp all)) fun committing => ?_
    refine .assuming fun facts => ?_
    refine .bind _ (contract_publishCommittingLocked env.publish safe
      facts.1 facts.2) fun completed => ?_
    exact .pure fun _ _ => trivial
  exact (publish.of_raised focus rest).elim

end Calls

section Routes

variable [LinearOrder Time] [Sub Time] {service : Service Time} {world : World Time}
  {circumstances : Circumstances Time} {request : HTTPRequest} {fileId : FileId}

section

omit [LinearOrder Time] [Sub Time]

theorem encryptedRecordMembers_encode (service : Service Time) (record : Record Time) :
    ∀ member ∈ encryptedRecordMembers service record, member.2.HasEncoding := by
  have chunks : (Payload.list (record.receivedChunks.map fun chunk => Payload.ofMembers
      [("index", .ofNat chunk.index),
        ("resume_mac", .ofText (Base64Url.encode chunk.resumeMac))])).HasEncoding := by
    rw [hasEncoding_list, forall_mem_map]
    intro chunk _
    rw [hasEncoding_ofMembers, forall_mem_cons, forall_mem_singleton]
    exact ⟨trivial, hasEncoding_ofText _⟩
  simp only [encryptedRecordMembers, forall_mem_cons, hasEncoding_ofText, true_and]
  exact ⟨trivial, trivial, trivial, trivial, trivial, chunks, trivial, trivial, forall_mem_nil _⟩

theorem encryptedRecordPayload_encodes (service : Service Time) (record : Record Time) :
    (encryptedRecordPayload service record).HasEncoding :=
  hasEncoding_ofMembers.mpr (encryptedRecordMembers_encode service record)

theorem recordList_encodes (service : Service Time) (records : List (Record Time)) :
    (Payload.list (records.map (encryptedRecordPayload service))).HasEncoding := by
  rw [hasEncoding_list, forall_mem_map]
  exact fun record _ => encryptedRecordPayload_encodes service record

theorem capacityPayload_encodes (circumstances : Circumstances Time) :
    (capacityPayload circumstances).HasEncoding := by
  rw [capacityPayload, hasEncoding_ofMembers, forall_mem_map]
  rintro ⟨name, number⟩ _
  cases number with
  | none | some => trivial

theorem answerOne_quiet {payload : Payload} (encodes : payload.HasEncoding) (name : String)
    (status : Nat) : Quiet (answering [(name, payload)] status : Handler Time Response) :=
  answering_quiet (forall_mem_singleton.mpr encodes) status

end

theorem idPayload_encodes (fileId : FileId) :
    (Payload.ofMembers [("id", .ofText fileId.text)]).HasEncoding := by
  rw [hasEncoding_ofMembers, forall_mem_singleton]
  exact hasEncoding_ofText _

section

variable (settled : Settled service world)
include settled

theorem storageCapacity_quiet : ¬ Escapes (calling (storageCapacity service circumstances)) world :=
  calling_quiet_of_contract (contract_storageCapacity circumstances) settled

theorem storageCapacity_returned {payload : Payload}
    (returned : (calling (storageCapacity service circumstances)).final world =
      (.ok payload, last)) : payload.HasEncoding := by
  have contract : Contract (Sound service) (Settled service) (storageCapacity service circumstances)
      (fun payload _ => payload = capacityPayload circumstances) fun _ _ => False :=
    contract_storageCapacity circumstances
  rw [contract.of_returned settled (calling_returned returned)]
  exact capacityPayload_encodes circumstances

theorem listEncryptedUploads_quiet :
    ¬ Escapes (listEncryptedUploads service circumstances) world := by
  have listing : Contract (Sound service) (Settled service)
      (listFiles service circumstances.env (some .partial_)) (fun _ => Settled service)
      fun _ _ => False := contract_listFiles circumstances.env _
  refine not_escapes_bind (calling_quiet_of_contract listing settled) ?_
  intro records middle returned
  have between := listing.of_returned settled (calling_returned returned)
  refine not_escapes_bind (storageCapacity_quiet between) fun storage last reported => ?_
  refine answering_quiet ?_ 200 last
  simp only [forall_mem_cons]
  exact ⟨recordList_encodes service records, trivial, storageCapacity_returned between reported,
    forall_mem_nil _⟩

theorem listEncryptedFiles_quiet : ¬ Escapes (listEncryptedFiles service circumstances) world := by
  refine not_escapes_bind
    (calling_quiet_of_contract (contract_listFiles circumstances.env _) settled) ?_
  exact fun records middle _ => answerOne_quiet (recordList_encodes service records) _ 200 middle

theorem completeRecord_quiet : ¬ Escapes (completeRecord service circumstances fileId) world :=
  not_escapes_bind (get_quiet settled circumstances.env fileId)
    fun _ middle _ => quiet_pure _ middle

theorem quiet_of_completeRecord
    {next : Option (Record Time) → Handler Time α} (rest : ∀ record, Quiet (next record)) :
    ¬ Escapes (completeRecord service circumstances fileId >>= next) world :=
  not_escapes_bind (completeRecord_quiet settled) fun record middle _ => rest record middle

end

omit [LinearOrder Time] [Sub Time] in
theorem deleted_quiet (name : String) (fileId : FileId) (cause : Cause Time) :
    Quiet (do
      let _ ← calling (deleteLocked fileId cause)
      answering [(name, .ofMembers [("id", .ofText fileId.text)])] 200 :
        Handler Time Response) := by
  refine Quiet.bind (calling_quiet_of_raisesOnly ?_) fun _ =>
    answerOne_quiet (idPayload_encodes fileId) name 200
  exact fun state error raised => (deleteLocked_raisesOnly fileId cause state error raised).elim

theorem handleEncryptedFileItem_quiet (settled : Settled service world) :
    ¬ Escapes (handleEncryptedFileItem service circumstances request fileId) world := by
  unfold handleEncryptedFileItem
  dsimp only
  split
  · exact encryptedMethodNotAllowed_quiet _ _ world
  split
  · exact invalidNamed_quiet "body" world
  refine quiet_of_completeRecord settled fun record => ?_
  cases record with
  | none => exact encryptedNotFound_quiet
  | some record =>
    refine Quiet.ite (fun _ => ?_) fun _ => deleted_quiet _ fileId _
    exact answerOne_quiet (encryptedRecordPayload_encodes service record) _ 200

theorem downloadEncryptedFile_quiet (settled : Settled service world) :
    ¬ Escapes (downloadEncryptedFile service circumstances fileId) world := by
  refine quiet_of_completeRecord settled fun record => ?_
  cases record with
  | none => exact encryptedNotFound_quiet
  | some _ =>
    refine Quiet.bind (quiet_inspect _) fun slot => ?_
    cases slot.complete with
    | none => exact encryptedNotFound_quiet
    | some data => exact quiet_pure _

theorem decimalInt_succeeds {manifest : Manifest} {digits : Text}
    (few : ¬ (Nat.toDigits 10 manifest.chunkCount).length < digits.length) :
    Succeeds (decimalInt digits) := by
  have count : (natText manifest.chunkCount).length ≤ 4 :=
    length_natText_le (by decide) (lt_of_le_of_lt manifest.chunkCount_le (by decide))
  unfold natText at count
  unfold decimalInt maxStrDigits
  rw [if_neg (by omega)]
  exact Succeeds.ok _

theorem setIterator_succeeds {response : Response} {source : Source} {contentType : Str}
    {contentLength : Int} (nonneg : 0 ≤ contentLength) :
    Succeeds (response.setIterator source contentType contentLength) := by
  rw [HTTPResponse.setIterator, if_neg (by omega)]
  exact Succeeds.ok _

omit [LinearOrder Time] [Sub Time] in
theorem streamChunk_quiet (record : Record Time) (slot : Slot Time) (rawIndex : Text) :
    Quiet (streamChunk record slot rawIndex) := by
  unfold streamChunk
  refine Quiet.ite (fun _ => encryptedNotFound_quiet) fun few => ?_
  intro state
  refine not_escapes_bind ?_ fun index middle _ => ?_
  · rw [escapes_building, not_not]
    exact decimalInt_succeeds few
  · refine Quiet.ite (fun _ => encryptedNotFound_quiet) (fun inside => ?_) middle
    cases openCompleteCiphertext record slot with
    | none => exact encryptedNotFound_quiet
    | some data =>
      refine Quiet.bind ?_ fun response => quiet_pure _
      intro last
      rw [escapes_building, not_not]
      have length := record.manifest.plaintextLength_nonneg (not_le.mp inside)
      exact setIterator_succeeds (by omega)

theorem downloadEncryptedChunk_quiet (settled : Settled service world) (rawIndex : Text) :
    ¬ Escapes (downloadEncryptedChunk service circumstances fileId rawIndex) world := by
  refine quiet_of_completeRecord settled fun record => ?_
  cases record with
  | none => exact encryptedNotFound_quiet
  | some record =>
    exact Quiet.bind (quiet_inspect _) fun slot => streamChunk_quiet record slot rawIndex

omit [LinearOrder Time] [Sub Time] in
theorem bodiless_quiet {method : String} {answer : Handler Time Response}
    (quiet : ¬ Escapes answer world) : ¬ Escapes (bodiless request method answer) world := by
  unfold bodiless
  split
  · exact encryptedMethodNotAllowed_quiet _ _ world
  split
  · exact invalidNamed_quiet "body" world
  · exact quiet

theorem completeEncryptedUpload_quiet (settled : Settled service world) :
    ¬ Escapes (completeEncryptedUpload service circumstances fileId) world := by
  refine not_escapes_bind (outcomeOf_quiet _ world) fun outcome middle returned => ?_
  have ended := outcomeOf_returned returned
  cases outcome with
  | ok result =>
    refine answerOne_quiet ?_ _ 200 middle
    rw [hasEncoding_ofMembers, forall_mem_append, forall_mem_singleton]
    exact ⟨encryptedRecordMembers_encode service result.1, trivial⟩
  | error error =>
    rcases complete_raised settled ended with ⟨message, rfl⟩ | ⟨message, rfl⟩
    · exact encryptedNotFound_quiet middle
    · exact plainError_quiet ⟨by decide, by decide⟩ 409 "id" middle

section

omit [LinearOrder Time] [Sub Time]

theorem requireContentType_quiet (expected : String) :
    Quiet (requireContentType request expected : Handler Time (Option Response)) := by
  unfold requireContentType
  have unsupported : Quiet (requireContentType.unsupported expected : Handler Time Response) := by
    refine encryptedError_quiet ⟨by decide, by decide⟩ 415 ?_ ?_
    · rintro name ⟨⟩
      exact hasEncoding_str _
    · rw [forall_mem_singleton, hasEncoding_list, forall_mem_singleton]
      exact hasEncoding_ofText _
  split
  · refine Quiet.ite (fun _ => quiet_pure _) fun _ => ?_
    exact Quiet.bind unsupported fun _ => quiet_pure _
  · exact Quiet.bind unsupported fun _ => quiet_pure _
  · exact Quiet.bind (invalidNamed_quiet _) fun _ => quiet_pure _

theorem requireContentType_returned {expected : String}
    (checked : (requireContentType request expected).final world = (.ok none, last)) :
    request.headerValues "content-type" = [expected.toList] ∧ last = world := by
  unfold requireContentType at checked
  split at checked
  · case h_1 value only =>
      by_cases same : value = expected.toList
      · rw [if_pos same] at checked
        cases checked
        exact ⟨by rw [only, same], rfl⟩
      rw [if_neg same] at checked
      obtain ⟨_, _, _, rest⟩ := bind_returned checked
      cases rest
  all_goals
    obtain ⟨_, _, _, rest⟩ := bind_returned checked
    cases rest

theorem requireContentType_of_expected {expected : String}
    (only : request.headerValues "content-type" = [expected.toList]) (world : World Time) :
    (requireContentType request expected).final world = (.ok none, world) := by
  unfold requireContentType
  rw [only]
  dsimp only
  rw [if_pos rfl]
  rfl

end

section

variable (settled : Settled service world)
include settled

theorem storeEncryptedChunk_quiet (index : Nat) (body resumeMac : Bytes) :
    ¬ Escapes (storeEncryptedChunk service circumstances fileId index body resumeMac) world := by
  refine not_escapes_bind (outcomeOf_quiet _ world) fun outcome middle returned => ?_
  have ended := outcomeOf_returned returned
  cases outcome with
  | ok result =>
    refine answerOne_quiet ?_ _ _ middle
    simp only [hasEncoding_ofMembers, forall_mem_cons]
    exact ⟨hasEncoding_ofText _, trivial, trivial, hasEncoding_ofText _, forall_mem_nil _⟩
  | error error =>
    have raised := writeChunk_raised settled ended
    cases error with
    | validation message => exact invalidNamed_quiet _ middle
    | notFound message => exact encryptedNotFound_quiet middle
    | conflict message => exact plainError_quiet ⟨by decide, by decide⟩ 409 "body" middle
    | incomplete | quotaExceeded => simp [IsChunkError] at raised
    | corrupt | os => exact fun escaped => escapes_raise.mp escaped trivial

theorem putEncryptedChunk_quiet (index : Nat) :
    ¬ Escapes (putEncryptedChunk service circumstances request fileId index) world := by
  refine not_escapes_bind (requireContentType_quiet _ world) fun mediaError middle checked => ?_
  cases mediaError with
  | some mediaError => exact quiet_pure _ middle
  | none =>
    have same := requireContentType_returned checked
    rw [same.2]
    dsimp only
    split
    · exact plainError_quiet ⟨by decide, by decide⟩ 413 "body" world
    split
    · exact plainError_quiet ⟨by decide, by decide⟩ 400 _ world
    · split
      · exact invalidNamed_quiet _ world
      split
      · exact invalidNamed_quiet _ world
      · exact storeEncryptedChunk_quiet settled index _ _
    · exact invalidNamed_quiet _ world

theorem createManifest_quiet (manifest : Manifest) :
    ¬ Escapes (createManifest service circumstances manifest) world := by
  refine not_escapes_bind (outcomeOf_quiet _ world) fun outcome middle returned => ?_
  have ended := outcomeOf_returned returned
  cases outcome with
  | ok result => exact answerOne_quiet (encryptedRecordPayload_encodes service result.1) _ _ middle
  | error error =>
    have raised := create_raised settled ended
    have between := (contract_create circumstances.env manifest).of_raised settled ended
    cases error with
    | validation message => exact invalidNamed_quiet _ middle
    | notFound | incomplete => simp [IsCreateError] at raised
    | conflict message => exact plainError_quiet ⟨by decide, by decide⟩ 409 "id" middle
    | quotaExceeded reason =>
      refine not_escapes_bind (storageCapacity_quiet between) fun storage last reported => ?_
      refine encryptedError_quiet ⟨by decide, by decide⟩ 507 ?_ ?_ last
      · rintro name ⟨⟩
        exact hasEncoding_str _
      · simp only [forall_mem_cons]
        exact ⟨hasEncoding_ofText _, hasEncoding_ofText _,
          storageCapacity_returned between reported, forall_mem_nil _⟩
    | corrupt | os => exact fun escaped => escapes_raise.mp escaped trivial

end

end Routes

end XFerry.TransferApi
