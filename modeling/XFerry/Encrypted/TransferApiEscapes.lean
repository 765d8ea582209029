/-
The requests of encrypted transfers that end in an exception, and no others.
-/

import XFerry.Encrypted.ChunkRetry
import XFerry.Encrypted.TransferApiTotality
import XFerry.Python.TextLemmas

namespace XFerry.TransferApi

open CrashProgram Program EventMachine Http Json Python
open Encrypted hiding Bytes

/-! ### JSON bodies -/

/-- The request has a JSON body of a length that is read. -/
structure HasJsonBody (request : HTTPRequest) (maxBytes : Nat) : Prop where
  contentType : request.headerValues "content-type" = ["application/json".toList]
  length : request.body.length ≤ maxBytes

def fieldNames (expectedFields : List String) : List Str :=
  expectedFields.map fun field => str field.toList

/-- A body nests too deep, or the first member that is refused has a lone surrogate in its
name: one that occurs twice, or one that is not expected. -/
inductive BodyEscapes (levels : Nat) (body : Bytes) (expectedFields : List String) : Prop where
  | tooDeep (text : Text) (decoded : decode body = some text)
      (deep : loadsStrict levels text = .error .tooDeep)
  | duplicate (text : Text) (name : Str) (decoded : decode body = some text)
      (repeated : loadsStrict levels text = .error (.duplicateMember name))
      (lone : ¬ HasEncoding name)
  | unexpected (text : Text) (members : Members) (name : Str) (decoded : decode body = some text)
      (loaded : loadsStrict levels text = .ok (.object members))
      (first : (members.map Prod.fst).find? (· ∉ fieldNames expectedFields) = some name)
      (lone : ¬ HasEncoding name)

def acceptedMembers (levels : Nat) (body : Bytes) (expectedFields : List String) : Option Members :=
  match decode body with
  | none => none
  | some text =>
    match loadsStrict levels text with
    | .ok (.object members) =>
      if members.map Prod.fst ⊆ fieldNames expectedFields ∧
          fieldNames expectedFields ⊆ members.map Prod.fst then some members
      else none
    | _ => none

variable {Time : Type} [LinearOrder Time] [Sub Time] {levels : Nat} {body : Bytes}
  {expectedFields : List String} {members : Members} {request : HTTPRequest} {world : World Time}
  {maxBytes : Nat}

omit [LinearOrder Time] [Sub Time] in
theorem malformedJson_quiet : Quiet (malformedJson : Handler Time Response) :=
  plainError_quiet ⟨by decide, by decide⟩ 400 "body"

variable {program : Handler Time Response}

omit [LinearOrder Time] [Sub Time] in
theorem escapes_returning :
    Escapes (do return (.error (← program) : Except Response Members)) world ↔
      Escapes program world := by
  rw [escapes_bind]
  refine or_iff_left ?_
  rintro ⟨response, middle, _, escaped⟩
  exact quiet_pure _ middle escaped

theorem find?_member (expectedFields : List String) (members : Members) :
    (members.find? fun member => member.1 ∉ fieldNames expectedFields).map Prod.fst =
      (members.map Prod.fst).find? (· ∉ fieldNames expectedFields) := by
  rw [List.find?_map]
  rfl

omit [LinearOrder Time] [Sub Time] in
theorem checkMembers_escapes :
    Escapes (checkMembers expectedFields members) world ↔
      ∃ name, (members.map Prod.fst).find? (· ∉ fieldNames expectedFields) = some name ∧
        ¬ HasEncoding name := by
  rw [← find?_member]
  unfold checkMembers fieldNames
  cases members.find? fun member => member.1 ∉ expectedFields.map fun field => str field.toList with
  | some member =>
    rw [escapes_returning, encryptedInvalidField_escapes]
    simp
  | none =>
    refine iff_of_false ?_ (by simp)
    dsimp only
    split
    · rw [escapes_returning]
      exact plainError_quiet ⟨by decide, by decide⟩ 400 _ world
    · exact quiet_pure _ world

theorem bodyEscapes_iff {text : Text} (decoded : decode body = some text) :
    BodyEscapes levels body expectedFields ↔
      loadsStrict levels text = .error .tooDeep ∨
      (∃ name, loadsStrict levels text = .error (.duplicateMember name) ∧ ¬ HasEncoding name) ∨
      ∃ members, loadsStrict levels text = .ok (.object members) ∧
        ∃ name, (members.map Prod.fst).find? (· ∉ fieldNames expectedFields) = some name ∧
          ¬ HasEncoding name := by
  constructor
  · intro escapes
    cases escapes with
    | tooDeep other same deep =>
      cases decoded.symm.trans same
      exact .inl deep
    | duplicate other name same repeated lone =>
      cases decoded.symm.trans same
      exact .inr (.inl ⟨name, repeated, lone⟩)
    | unexpected other members name same loaded first lone =>
      cases decoded.symm.trans same
      exact .inr (.inr ⟨members, loaded, name, first, lone⟩)
  · rintro (deep | ⟨name, repeated, lone⟩ | ⟨members, loaded, name, first, lone⟩)
    · exact .tooDeep text decoded deep
    · exact .duplicate text name decoded repeated lone
    · exact .unexpected text members name decoded loaded first lone

omit [LinearOrder Time] [Sub Time] in
theorem decodeEncryptedJson_escapes :
    Escapes (decodeEncryptedJson levels body expectedFields) world ↔
      BodyEscapes levels body expectedFields := by
  unfold decodeEncryptedJson
  cases decoded : decode body with
  | none =>
    rw [escapes_returning]
    refine iff_of_false (malformedJson_quiet world) fun escaped => ?_
    cases escaped with
    | tooDeep _ same | duplicate _ _ same | unexpected _ _ _ same => cases decoded.symm.trans same
  | some text =>
    rw [bodyEscapes_iff decoded]
    dsimp only
    cases loaded : loadsStrict levels text with
    | error failure =>
      cases failure with
      | tooDeep => simp [escapes_raise, Escape.IsIo]
      | duplicateMember name => simp [escapes_returning, encryptedInvalidField_escapes]
      | malformed | tooManyDigits => simp [escapes_returning, malformedJson_quiet world]
    | ok value =>
      cases value with
      | object members => simp [checkMembers_escapes]
      | null | boolean | int | float | string | array =>
        simp [escapes_returning, invalidNamed_quiet _ world]

variable {last : World Time}

section

omit [LinearOrder Time] [Sub Time]

theorem not_members_of_returning :
    (do return (.error (← program) : Except Response Members)).final world ≠
      (.ok (.ok members), last) := by
  intro returned
  obtain ⟨_, _, _, rest⟩ := bind_returned returned
  cases rest

theorem checkMembers_returned {found : Members} :
    (checkMembers expectedFields members).final world = (.ok (.ok found), last) ↔
      (members.map Prod.fst ⊆ fieldNames expectedFields ∧
        fieldNames expectedFields ⊆ members.map Prod.fst) ∧ found = members ∧ last = world := by
  have known : (members.find? fun member => member.1 ∉ fieldNames expectedFields) = none ↔
      members.map Prod.fst ⊆ fieldNames expectedFields := by
    rw [List.find?_eq_none, List.subset_def, List.forall_mem_map]
    simp
  have present : (expectedFields.find? fun field => str field.toList ∉ members.map Prod.fst) =
      none ↔ fieldNames expectedFields ⊆ members.map Prod.fst := by
    rw [List.find?_eq_none, fieldNames]
    simp [List.subset_def]
  rw [← known, ← present]
  unfold checkMembers
  rw [← fieldNames]
  cases members.find? fun member => member.1 ∉ fieldNames expectedFields with
  | some member => exact iff_of_false not_members_of_returning (by simp)
  | none =>
    cases expectedFields.find? fun field => str field.toList ∉ members.map Prod.fst with
    | some field => exact iff_of_false not_members_of_returning (by simp)
    | none =>
      simp only [and_self, true_and]
      constructor
      · rintro ⟨⟩
        exact ⟨rfl, rfl⟩
      · rintro ⟨rfl, rfl⟩
        rfl

theorem decodeEncryptedJson_returned :
    (decodeEncryptedJson levels body expectedFields).final world = (.ok (.ok members), last) ↔
      acceptedMembers levels body expectedFields = some members ∧ last = world := by
  unfold decodeEncryptedJson acceptedMembers
  cases decode body with
  | none => exact iff_of_false not_members_of_returning (by simp)
  | some text =>
    dsimp only
    cases loadsStrict levels text with
    | error failure =>
      refine iff_of_false ?_ (by simp)
      cases failure with
      | tooDeep => exact fun returned => by cases returned
      | duplicateMember | malformed | tooManyDigits => exact not_members_of_returning
    | ok value =>
      cases value with
      | object loaded =>
        dsimp only
        rw [checkMembers_returned]
        by_cases known : loaded.map Prod.fst ⊆ fieldNames expectedFields ∧
            fieldNames expectedFields ⊆ loaded.map Prod.fst
        · rw [if_pos known, and_iff_right known, Option.some.injEq, eq_comm]
        · rw [if_neg known]
          exact iff_of_false (fun both => known both.1) (by simp)
      | null | boolean | int | float | string | array =>
        exact iff_of_false not_members_of_returning (by simp)

theorem loadEncryptedJson_of_hasJsonBody (hasBody : HasJsonBody request maxBytes)
    (world : World Time) :
    (loadEncryptedJson levels request expectedFields maxBytes).final world =
      (decodeEncryptedJson levels request.body expectedFields).final world := by
  unfold loadEncryptedJson
  rw [final_bind_of_ok (requireContentType_of_expected hasBody.contentType world)]
  rw [if_neg (not_lt.mpr hasBody.length)]

theorem loadEncryptedJson_escapes :
    Escapes (loadEncryptedJson levels request expectedFields maxBytes) world ↔
      HasJsonBody request maxBytes ∧ BodyEscapes levels request.body expectedFields := by
  by_cases hasBody : HasJsonBody request maxBytes
  · have rest : Escapes (decodeEncryptedJson levels request.body expectedFields) world ↔
        BodyEscapes levels request.body expectedFields := decodeEncryptedJson_escapes
    rw [and_iff_right hasBody, ← rest]
    unfold Escapes
    rw [loadEncryptedJson_of_hasJsonBody hasBody]
  · refine iff_of_false ?_ fun both => hasBody both.1
    refine not_escapes_bind (requireContentType_quiet _ world) fun mediaError middle checked => ?_
    cases mediaError with
    | some mediaError => exact quiet_pure _ middle
    | none =>
      obtain ⟨contentType, _⟩ := requireContentType_returned checked
      rw [if_pos (not_le.mp fun length => hasBody ⟨contentType, length⟩), escapes_returning]
      exact plainError_quiet ⟨by decide, by decide⟩ 413 "body" middle

theorem loadEncryptedJson_returned :
    (loadEncryptedJson levels request expectedFields maxBytes).final world =
        (.ok (.ok members), last) ↔
      HasJsonBody request maxBytes ∧
        acceptedMembers levels request.body expectedFields = some members ∧ last = world := by
  by_cases hasBody : HasJsonBody request maxBytes
  · rw [and_iff_right hasBody, loadEncryptedJson_of_hasJsonBody hasBody,
      decodeEncryptedJson_returned]
  refine iff_of_false ?_ fun both => hasBody both.1
  intro returned
  obtain ⟨mediaError, middle, checked, rest⟩ := bind_returned returned
  cases mediaError with
  | some mediaError => cases rest
  | none =>
    obtain ⟨contentType, _⟩ := requireContentType_returned checked
    rw [if_pos (not_le.mp fun length => hasBody ⟨contentType, length⟩)] at rest
    exact not_members_of_returning rest

end

/-! ### The routes that read one -/

variable {api : Api Time} {service : Service Time} {circumstances : Circumstances Time}
  {fileId : FileId}

theorem createEncryptedUpload_escapes (settled : Settled service world) :
    Escapes (createEncryptedUpload api service circumstances request fileId) world ↔
      HasJsonBody request createBodyLimit ∧ BodyEscapes api.levels request.body createFields := by
  unfold createEncryptedUpload
  rw [escapes_bind, loadEncryptedJson_escapes]
  refine or_iff_left ?_
  rintro ⟨outcome, middle, loaded, escaped⟩
  cases outcome with
  | error payloadError => exact quiet_pure _ middle escaped
  | ok members =>
    obtain ⟨_, _, rfl⟩ := loadEncryptedJson_returned.mp loaded
    dsimp only at escaped
    split at escaped
    · exact invalidNamed_quiet _ middle escaped
    · exact createManifest_quiet settled _ escaped

/-- The metadata of the file open with the key of the body, and nest too deep. -/
def MetadataEscapes (api : Api Time) (body : Bytes) (slot : Slot Time) : Prop :=
  ∃ members contentKey record plaintext text,
    acceptedMembers api.levels body ["content_key"] = some members ∧
    contentKeyMember members = some contentKey ∧
    slot.journal = some record ∧ record.status = .complete ∧
    decryptMetadata api.aead contentKey record.manifest = .ok (some plaintext) ∧
    decode plaintext = some text ∧ loads api.metadataLevels text = .error .tooDeep

theorem parseMetadata_succeeds {levels : Nat} {plaintext : Bytes} :
    ¬ Succeeds (parseMetadata levels plaintext) ↔
      ∃ text, decode plaintext = some text ∧ loads levels text = .error .tooDeep := by
  unfold parseMetadata
  cases decode plaintext with
  | none => exact iff_of_false (not_not.mpr (Succeeds.ok _)) (by simp)
  | some text =>
    simp only [Option.some.injEq, exists_eq_left']
    cases loads levels text with
    | error failure =>
      cases failure with
      | tooDeep => exact iff_of_true (Succeeds.not_error _) rfl
      | duplicateMember | malformed | tooManyDigits =>
        exact iff_of_false (not_not.mpr (Succeeds.ok _)) (by simp)
    | ok value =>
      refine iff_of_false (not_not.mpr ?_) (by simp)
      cases value with
      | object members =>
        dsimp only
        split <;> exact Succeeds.ok _
      | null | boolean | int | float | string | array => exact Succeeds.ok _

omit [LinearOrder Time] [Sub Time] in
theorem openMetadata_escapes {contentKey : Bytes} {manifest : Manifest}
    (length : contentKey.length = 32) :
    Escapes (openMetadata api contentKey manifest) world ↔
      ∃ plaintext text, decryptMetadata api.aead contentKey manifest = .ok (some plaintext) ∧
        decode plaintext = some text ∧ loads api.metadataLevels text = .error .tooDeep := by
  unfold openMetadata
  cases opened : decryptMetadata api.aead contentKey manifest with
  | error error =>
    obtain ⟨nonce, aad, isNonce, isAad⟩ := metadataContext manifest
    unfold decryptMetadata at opened
    rw [Ensures.bind_of_ok (requireAesKey_eq_ok length), Ensures.bind_of_ok isNonce,
      Ensures.bind_of_ok isAad] at opened
    split at opened
    · cases opened
    · cases opened
  | ok answer =>
    cases answer with
    | none => exact iff_of_false (quiet_pure _ world) (by simp)
    | some plaintext =>
      rw [escapes_building, parseMetadata_succeeds]
      simp

theorem contentKeyMember_length {members : Members} {contentKey : Bytes}
    (found : contentKeyMember members = some contentKey) : contentKey.length = 32 := by
  have kept := (Option.filter_eq_some_iff.mp found).2
  simpa using kept

section

omit [LinearOrder Time] [Sub Time]

theorem streamDecrypted_quiet (record : Record Time) (slot : Slot Time) (contentKey : Bytes)
    (metadata : EncryptedFileMetadata) :
    Quiet (streamDecrypted api record slot contentKey metadata) := by
  unfold streamDecrypted
  split
  · exact encryptedDecryptionFailed_quiet
  split
  · exact encryptedNotFound_quiet
  refine Quiet.bind ?_ fun response => quiet_pure _
  intro state
  rw [escapes_building, not_not]
  exact setIterator_succeeds (Int.natCast_nonneg _)

theorem final_calling {α : Type} {action : Action Time α} {value : α}
    (ended : action.final world = (.ok value, last)) :
    (calling action).final world = (.ok value, last) := by
  have called : (outcomeOf action).final world = (.ok (.ok value), last) := by
    change (Except.ok (action.final world).1, (action.final world).2) = _
    rw [ended]
  rw [calling, final_bind_of_ok called]
  rfl

end

theorem get_found (settled : Settled service world) {env : Environment Time}
    {record : Record Time}
    (found : (get service env fileId).final world = (.ok (some record), last)) :
    (world.slot fileId).journal = some record ∧ last = world := by
  cases journal : (world.slot fileId).journal with
  | none =>
    have result := congrArg Prod.fst found
    change (get service env fileId world).result = _ at result
    rw [get_of_absent journal] at result
    cases result
  | some stored =>
    have wellFormed := ((settled fileId).kept_of_journal journal).intact.wellFormed
    by_cases idle : stored.status = .partial_ ∧ isIdle service env.lookup stored = true
    · have answer := get_of_idle journal wellFormed idle
      have result := congrArg Prod.fst found
      change (get service env fileId world).result = _ at result
      rw [answer] at result
      cases result
    · rw [final_get_of_live journal wellFormed idle] at found
      cases found
      exact ⟨rfl, rfl⟩

theorem completeRecord_returned (settled : Settled service world) {record : Record Time} :
    (completeRecord service circumstances fileId).final world = (.ok (some record), last) ↔
      (world.slot fileId).journal = some record ∧ record.status = .complete ∧ last = world := by
  constructor
  · intro returned
    obtain ⟨answer, middle, called, rest⟩ := bind_returned returned
    rw [final_pure, Prod.mk.injEq, Except.ok.injEq, Option.filter_eq_some_iff] at rest
    obtain ⟨⟨rfl, isComplete⟩, rfl⟩ := rest
    have complete := of_decide_eq_true isComplete
    obtain ⟨journal, same⟩ := get_found settled (calling_returned called)
    exact ⟨journal, complete, same⟩
  · rintro ⟨journal, complete, rfl⟩
    have wellFormed := ((settled fileId).kept_of_journal journal).intact.wellFormed
    have live : ¬ (record.status = .partial_ ∧
        isIdle service circumstances.env.lookup record = true) := by
      rw [complete]
      exact fun both => nomatch both.1
    rw [completeRecord, final_bind_of_ok (final_calling
      (final_get_of_live journal wellFormed live)),
      final_pure]
    simp [complete]

omit [LinearOrder Time] [Sub Time] in
theorem decryptionForbidden_quiet :
    Quiet (encryptedError 403 "server_decryption_forbidden"
      "Server-side decryption requires TLS or a direct loopback peer" none [] :
        Handler Time Response) :=
  encryptedError_quiet ⟨by decide, by decide⟩ 403 nofun (List.forall_mem_nil _)

theorem decryptEncryptedFile_escapes (settled : Settled service world) :
    Escapes (decryptEncryptedFile api service circumstances request fileId) world ↔
      serverDecryptionAllowed api circumstances = true ∧
        HasJsonBody request decryptBodyLimit ∧
          (BodyEscapes api.levels request.body ["content_key"] ∨
            MetadataEscapes api request.body (world.slot fileId)) := by
  unfold decryptEncryptedFile
  by_cases forbidden : serverDecryptionAllowed api circumstances = false
  · rw [if_pos forbidden]
    refine iff_of_false ?_ (by simp [forbidden])
    exact decryptionForbidden_quiet world
  rw [if_neg forbidden, and_iff_right (Bool.eq_true_of_not_eq_false forbidden), escapes_bind,
    loadEncryptedJson_escapes, and_or_left]
  refine or_congr_right ?_
  constructor
  · rintro ⟨outcome, middle, loaded, escaped⟩
    cases outcome with
    | error payloadError => exact (quiet_pure _ middle escaped).elim
    | ok members =>
      obtain ⟨hasBody, accepted, rfl⟩ := loadEncryptedJson_returned.mp loaded
      refine ⟨hasBody, ?_⟩
      dsimp only at escaped
      split at escaped
      · exact (invalidNamed_quiet _ middle escaped).elim
      rename_i contentKey found
      rcases escapes_bind.mp escaped with looking | ⟨answer, last, looked, rest⟩
      · exact (completeRecord_quiet settled looking).elim
      · cases answer with
        | none => exact (encryptedNotFound_quiet last rest).elim
        | some record =>
          obtain ⟨journal, complete, rfl⟩ := (completeRecord_returned settled).mp looked
          rcases escapes_bind.mp rest with opening | ⟨metadata, left, _, streaming⟩
          · obtain ⟨plaintext, text, opened⟩ :=
              (openMetadata_escapes (contentKeyMember_length found)).mp opening
            exact ⟨members, contentKey, record, plaintext, text, accepted, found,
              journal, complete, opened⟩
          · refine (?_ : Quiet _) left streaming |>.elim
            cases metadata with
            | none => exact encryptedDecryptionFailed_quiet
            | some metadata =>
              exact Quiet.bind (quiet_inspect _) fun slot =>
                streamDecrypted_quiet record slot contentKey metadata
  · rintro ⟨hasBody, members, contentKey, record, plaintext, text, accepted, found, journal,
      complete, opened⟩
    refine ⟨.ok members, world, loadEncryptedJson_returned.mpr ⟨hasBody, accepted, rfl⟩, ?_⟩
    dsimp only
    rw [found]
    refine escapes_bind.mpr (.inr ⟨some record, world,
      (completeRecord_returned settled).mpr ⟨journal, complete, rfl⟩, ?_⟩)
    refine escapes_bind.mpr (.inl ?_)
    exact (openMetadata_escapes (contentKeyMember_length found)).mpr ⟨plaintext, text, opened⟩

/-! ### The handler -/

def RouteEscapes (api : Api Time) (circumstances : Circumstances Time) (request : HTTPRequest)
    (world : World Time) : Route → Prop
  | .uploadChunk _ digits =>
    request.requestLine.method = "PUT".toList ∧ maxStrDigits < digits.length
  | .uploadItem _ =>
    request.requestLine.method = "PUT".toList ∧ HasJsonBody request createBodyLimit ∧
      BodyEscapes api.levels request.body createFields
  | .fileDecrypt fileId =>
    request.requestLine.method = "POST".toList ∧
      serverDecryptionAllowed api circumstances = true ∧
        HasJsonBody request decryptBodyLimit ∧
          (BodyEscapes api.levels request.body ["content_key"] ∨
            MetadataEscapes api request.body (world.slot fileId))
  | _ => False

def Unanswered (api : Api Time) (circumstances : Circumstances Time) (request : HTTPRequest)
    (world : World Time) : Prop :=
  api.storage ≠ none ∧ request.requestLine.rawTarget = request.requestLine.rawPath ∧
    request.requestLine.rawPath = request.requestLine.path ∧
      ∃ route ∈ routeOf request.requestLine.rawPath,
        RouteEscapes api circumstances request world route

theorem not_succeeds_decimalInt {digits : Text} :
    ¬ Succeeds (decimalInt digits) ↔ maxStrDigits < digits.length := by
  unfold decimalInt
  by_cases long : maxStrDigits < digits.length
  · rw [if_pos long]
    exact iff_of_true (Succeeds.not_error _) long
  · rw [if_neg long]
    exact iff_of_false (not_not.mpr (Succeeds.ok _)) long

theorem handleEncryptedUploadItem_escapes (settled : Settled service world) :
    Escapes (handleEncryptedUploadItem api service circumstances request fileId) world ↔
      request.requestLine.method = "PUT".toList ∧ HasJsonBody request createBodyLimit ∧
        BodyEscapes api.levels request.body createFields := by
  unfold handleEncryptedUploadItem
  by_cases put : request.requestLine.method = "PUT".toList
  · rw [if_pos put, createEncryptedUpload_escapes settled, and_iff_right put]
  rw [if_neg put]
  refine iff_of_false ?_ fun both => put both.1
  split
  · split
    · exact invalidNamed_quiet "body" world
    refine not_escapes_bind (get_quiet settled _ _) fun answer middle _ => ?_
    cases answer with
    | none => exact encryptedNotFound_quiet middle
    | some record =>
      refine Quiet.ite (fun _ => encryptedNotFound_quiet) (fun _ => ?_) middle
      exact answerOne_quiet (encryptedRecordPayload_encodes service record) _ 200
  · split
    · have looking : Contract (Sound service) (Settled service)
          (lookUpUploadItem service circumstances.env fileId request.body)
          (fun _ _ => True) fun _ _ => False := by
        unfold lookUpUploadItem
        split
        · exact .pure fun _ _ => trivial
        refine .bind _ (contract_get circumstances.env) fun answer => ?_
        cases answer with
        | none => exact .pure fun _ _ => trivial
        | some record =>
          dsimp only
          split
          · exact .pure fun _ _ => trivial
          · exact .pure fun _ _ => trivial
      refine not_escapes_bind (calling_quiet_of_contract looking settled)
        fun answer middle _ => ?_
      have deleting : Quiet (do
          let _ ← calling (deleteUploadItem fileId : Action Time UploadItemAnswer)
          answering [("deleted_encrypted_upload", .ofMembers [("id", .ofText fileId.text)])] 200 :
            Handler Time Response) := by
        refine Quiet.bind (calling_quiet_of_raisesOnly ?_) fun _ =>
          answerOne_quiet (idPayload_encodes fileId) _ 200
        refine .bind (fun state error raised => ?_) fun _ => .pure _
        exact (deleteLocked_raisesOnly fileId _ state error raised).elim
      split
      · exact invalidNamed_quiet _ middle
      · exact encryptedNotFound_quiet middle
      · exact deleting middle
      · exact deleting middle
    · exact encryptedMethodNotAllowed_quiet _ _ world

theorem dispatch_escapes (settled : Settled service world) (route : Route) :
    Escapes (dispatch api service circumstances request route) world ↔
      RouteEscapes api circumstances request world route := by
  cases route with
  | uploads => exact iff_of_false (bodiless_quiet (listEncryptedUploads_quiet settled)) id
  | uploadChunk fileId digits =>
    dsimp only [dispatch, RouteEscapes]
    by_cases other : request.requestLine.method ≠ "PUT".toList
    · rw [if_pos other]
      exact iff_of_false (encryptedMethodNotAllowed_quiet _ _ world) fun both => other both.1
    rw [if_neg other, and_iff_right (not_not.mp other), escapes_bind, escapes_building,
      not_succeeds_decimalInt]
    refine or_iff_left ?_
    rintro ⟨index, middle, converted, escaped⟩
    obtain ⟨_, rfl⟩ := building_returned converted
    exact putEncryptedChunk_quiet settled index escaped
  | uploadComplete fileId =>
    exact iff_of_false (bodiless_quiet (completeEncryptedUpload_quiet settled)) id
  | uploadItem fileId => exact handleEncryptedUploadItem_escapes settled
  | files => exact iff_of_false (bodiless_quiet (listEncryptedFiles_quiet settled)) id
  | fileData fileId => exact iff_of_false (bodiless_quiet (downloadEncryptedFile_quiet settled)) id
  | fileChunk fileId digits =>
    exact iff_of_false (bodiless_quiet (downloadEncryptedChunk_quiet settled digits)) id
  | fileDecrypt fileId =>
    dsimp only [dispatch, RouteEscapes]
    by_cases other : request.requestLine.method ≠ "POST".toList
    · rw [if_pos other]
      exact iff_of_false (encryptedMethodNotAllowed_quiet _ _ world) fun both => other both.1
    · rw [if_neg other, and_iff_right (not_not.mp other), decryptEncryptedFile_escapes settled]
  | fileItem fileId => exact iff_of_false (handleEncryptedFileItem_quiet settled) id

theorem handleEncryptedTransfer_escapes (settled : ∀ service ∈ api.storage, Settled service world) :
    Escapes (handleEncryptedTransfer api circumstances request) world ↔
      Unanswered api circumstances request world := by
  unfold handleEncryptedTransfer Unanswered
  cases storage : api.storage with
  | none => exact iff_of_false (notFound_quiet _ world) fun all => all.1 rfl
  | some service =>
    have here := settled service storage
    dsimp only
    by_cases changed : request.requestLine.rawTarget ≠ request.requestLine.rawPath ∨
        request.requestLine.rawPath ≠ request.requestLine.path
    · rw [if_pos changed]
      refine iff_of_false (encryptedNotFound_quiet world) ?_
      rintro ⟨_, target, path, _⟩
      rcases changed with other | other
      · exact other target
      · exact other path
    · rw [if_neg changed, not_or, not_not, not_not] at *
      rw [and_iff_right (Option.some_ne_none service), and_iff_right changed.1,
        and_iff_right changed.2]
      cases routeOf request.requestLine.rawPath with
      | none => exact iff_of_false (encryptedNotFound_quiet world) (by simp)
      | some route =>
        rw [dispatch_escapes here]
        simp

/-- The storage may be in any state that calls, crashes and start-ups lead to. -/
theorem handleEncryptedTransfer_answers_iff {events : List (Event Time)} {system : System Time}
    (reached : run (System.step service) System.initial events = some system)
    (running : system.running = true) (stored : ∀ other ∈ api.storage, other = service) :
    Answers ((handleEncryptedTransfer api circumstances request).final system.world).1 ↔
      ¬ Unanswered api circumstances request system.world := by
  have settled : Settled service system.world := (run_valid reached).settled running
  rw [answers_iff, handleEncryptedTransfer_escapes]
  intro other present
  rw [stored other present]
  exact settled

/-! ### Samples -/

def sampleApi : Api Int :=
  { storage := some sampleService
    aead := vectorAead
    levels := 1000
    metadataLevels := 1000
    tlsEnabled := false
    isLoopback := fun _ => some true }

def sampleCircumstances : Circumstances Int :=
  { env := sampleEnvironment
    capacitySweep := 0
    capacity := []
    directPeer := none }

def sampleItemPath : Text := encryptedUploadsPath ++ '/' :: List.replicate 32 '0'

def sampleCreation (text : String) : HTTPRequest :=
  { requestLine :=
      { RequestLine.empty with
        method := "PUT".toList
        rawTarget := sampleItemPath
        rawPath := sampleItemPath
        path := sampleItemPath }
    fields :=
      [{ key := "content-type".toList
         name := "content-type".toList
         value := "application/json".toList
         rawLines := [] }]
    body := encodeAscii text.toList
    parseError := none }

theorem emptyCreation_answers :
    Answers ((handleEncryptedTransfer sampleApi sampleCircumstances
      (sampleCreation "\x7b\x7d")).final (afterSample [.start sampleEnvironment]).world).1 := by
  refine (handleEncryptedTransfer_answers_iff (run_eq_afterSample rfl) rfl
    (by simp [sampleApi])).mpr ?_
  rintro ⟨-, -, -, route, taken, escapes⟩
  cases taken
  have decoded : decode (sampleCreation "\x7b\x7d").body = some "\x7b\x7d".toList := by
    decide +kernel
  have loaded : loadsStrict sampleApi.levels "\x7b\x7d".toList = .ok (.object []) := rfl
  have bad := escapes.2.2
  rw [bodyEscapes_iff decoded, loaded] at bad
  simp at bad

/-- The name of the first member is a lone surrogate, and the answer cannot quote it. -/
theorem surrogateCreation_unanswered :
    ∃ system, run (System.step sampleService) System.initial [.start sampleEnvironment] =
        some system ∧ system.running = true ∧
      ¬ Answers ((handleEncryptedTransfer sampleApi sampleCircumstances
        (sampleCreation "\x7b\"\\ud800\":1\x7d")).final system.world).1 := by
  refine ⟨_, run_eq_afterSample rfl, rfl, ?_⟩
  rw [answers_iff, not_not, handleEncryptedTransfer_escapes]
  · refine ⟨nofun, rfl, rfl, _, rfl, rfl, ⟨by decide +kernel, by decide +kernel⟩, ?_⟩
    exact .unexpected "\x7b\"\\ud800\":1\x7d".toList [([0xD800], .int 1)] [0xD800]
      (by decide +kernel) rfl (by decide +kernel) (by decide +kernel)
  · rintro other ⟨⟩
    exact (run_valid (run_eq_afterSample rfl)).settled rfl

end XFerry.TransferApi
