/-
A journal is decoded to the record it was rendered from.

The chunks are rendered in the order of their names, which is not that of their numbers,
and decoded in the order of their numbers.
-/

import XFerry.Encrypted.JournalText
import XFerry.Ensures
import XFerry.Json.Rendering

namespace XFerry.Encrypted

open Json Python List Ensures

structure RenderedMember where
  name : Text
  text : Text
  value : Value

namespace RenderedMember

def rendered (member : RenderedMember) : Text := jsonMember member.name member.text

def scanned (member : RenderedMember) : Str × Value := (str member.name, member.value)

structure Sound (levels : Nat) (member : RenderedMember) : Prop where
  plain : ∀ char ∈ member.name, IsPlain char
  scans : Scans levels member.text member.value

theorem rendered_append (member : RenderedMember) (rest : Text) :
    member.rendered ++ rest = '"' :: (member.name ++ '"' :: ':' :: (member.text ++ rest)) := by
  simp [rendered, jsonMember, jsonString]

end RenderedMember

open RenderedMember

theorem skipWhitespace_cons {char : Char} (notSpace : isWhitespace char = false) (rest : Text) :
    skipWhitespace (char :: rest) = char :: rest := by
  rw [skipWhitespace, dropWhile_cons_of_neg (by simp [notSpace])]

theorem scanMember_rendered {levels : Nat} {member : RenderedMember} (sound : member.Sound levels)
    {mark : Char} (delimiter : mark = ',' ∨ mark = '}') (rest : Text) :
    scanMember (scanOnce levels) (member.rendered ++ mark :: rest) =
      .ok (member.scanned, mark :: rest) := by
  have delimited : Delimited (mark :: rest) := by
    apply delimited_cons
    rcases delimiter with comma | brace
    · exact .inl comma
    · exact .inr (.inl brace)
  have notSpace : isWhitespace mark = false := by
    rcases delimiter with rfl | rfl <;> decide
  rw [member.rendered_append, scanMember, scanString_append sound.plain]
  simp only
  rw [skipWhitespace_cons (by decide)]
  simp only
  rw [sound.scans.solid.skipWhitespace, sound.scans.scan _ delimited]
  simp only [Except.map, skipWhitespace_cons notSpace]
  rfl

theorem scanMembers_of_comma {scan : Text → Scan Value} {text rest : Text} {member : Str × Value}
    (scanned : scanMember scan text = .ok (member, ',' :: rest)) (fuel : Nat) :
    scanMembers scan (fuel + 1) text =
      (scanMembers scan fuel (skipWhitespace rest)).map fun result =>
        (member :: result.1, result.2) := by
  rw [scanMembers, scanned]
  rfl

theorem scanMembers_rendered {levels : Nat} {members : List RenderedMember}
    (nonempty : members ≠ []) (sound : ∀ member ∈ members, member.Sound levels) {fuel : Nat}
    (enough : members.length ≤ fuel) (rest : Text) :
    scanMembers (scanOnce levels) fuel
      (commaSeparated (members.map rendered) ++ '}' :: rest) =
        .ok (members.map scanned, rest) := by
  induction members generalizing fuel with
  | nil => exact absurd rfl nonempty
  | cons member others ih =>
    obtain ⟨left, rfl⟩ : ∃ left, fuel = left + 1 := ⟨fuel - 1, by rw [length_cons] at enough; omega⟩
    have here := sound member (mem_cons_self ..)
    cases others with
    | nil =>
      simp only [map_cons, map_nil, commaSeparated, scanMembers,
        scanMember_rendered here (.inr rfl) rest]
    | cons second more =>
      have inner := ih (cons_ne_nil _ _)
        (fun other inside => sound other (mem_cons_of_mem _ inside))
        (Nat.le_of_succ_le_succ enough)
      have solid : skipWhitespace
          (commaSeparated ((second :: more).map rendered) ++ '}' :: rest) =
          commaSeparated ((second :: more).map rendered) ++ '}' :: rest := by
        cases more with
        | nil =>
          exact skipWhitespace_cons (by decide) _
        | cons third tail =>
          rw [map_cons, map_cons, commaSeparated, append_assoc, second.rendered_append]
          · exact skipWhitespace_cons (by decide) _
          · exact fun same => nomatch same
      have text : commaSeparated ((member :: second :: more).map rendered) ++
          '}' :: rest = member.rendered ++
            ',' :: (commaSeparated ((second :: more).map rendered) ++ '}' :: rest) := by
        rw [map_cons, map_cons, commaSeparated, append_assoc]
        · rfl
        · exact fun same => nomatch same
      rw [text, scanMembers_of_comma (scanMember_rendered here (Or.inl rfl) _), solid, inner]
      rfl

theorem length_le_commaSeparated {members : List Text} (solid : ∀ member ∈ members, member ≠ []) :
    members.length ≤ (commaSeparated members).length := by
  fun_induction commaSeparated members with
  | case1 => exact Nat.le_refl 0
  | case2 member => exact length_pos_of_ne_nil (solid member (mem_cons_self ..))
  | case3 member rest _nonempty ih =>
    have inner := ih fun other inside => solid other (mem_cons_of_mem _ inside)
    rw [length_append, length_cons, length_cons]
    omega

theorem scans_object {levels : Nat} {members : List RenderedMember}
    (sound : ∀ member ∈ members, member.Sound levels)
    (distinct : (members.map fun member => str member.name).Nodup) :
    Scans (levels + 1) (jsonObject (members.map rendered)) (.object (members.map scanned)) := by
  have names : ((members.map scanned).map Prod.fst).Nodup := by
    rw [map_map]
    exact distinct
  constructor
  case solid => exact ⟨'{', _, rfl, by decide⟩
  case scan =>
    intro rest delimited
    have text : jsonObject (members.map rendered) ++ rest =
        '{' :: (commaSeparated (members.map rendered) ++ '}' :: rest) := by
      simp [jsonObject]
    rw [text, scanOnce]
    cases members with
    | nil => rfl
    | cons member others =>
      have starts : ∃ tail, commaSeparated ((member :: others).map rendered) ++
          '}' :: rest = '"' :: tail := by
        cases others with
        | nil =>
          exact ⟨_, rfl⟩
        | cons second more =>
          rw [map_cons, map_cons, commaSeparated, append_assoc, member.rendered_append]
          · exact ⟨_, rfl⟩
          · simp
      obtain ⟨tail, starts⟩ := starts
      have enough : (member :: others).length ≤
          (commaSeparated ((member :: others).map rendered) ++
            '}' :: rest).length + 1 := by
        have solid : ∀ text ∈ (member :: others).map rendered, text ≠ [] := by
          intro text inside
          obtain ⟨other, _, rfl⟩ := mem_map.mp inside
          simp [rendered, jsonMember, jsonString]
        have count := length_le_commaSeparated solid
        rw [length_map] at count
        rw [length_append]
        omega
      have scanned := scanMembers_rendered (cons_ne_nil member others) sound enough rest
      rw [starts] at scanned ⊢
      unfold scanObject
      rw [skipWhitespace_cons (by decide)]
      split
      · case h_1 same => exact absurd (cons.inj same).1 (by decide)
      rw [scanned]
      simp only [closeObject, if_pos names]
      rfl

theorem plain_encode (data : Bytes) : ∀ char ∈ Base64Url.encode data, IsPlain char := by
  rw [Base64Url.encode_eq_map_split]
  intro char member
  obtain ⟨value, _, rfl⟩ := mem_map.mp member
  have table : ∀ small, small < 64 → IsPlain (Base64Url.alphabet.getD small 'A') := by
    decide +kernel
  exact table (value % 64) (Nat.mod_lt _ (by decide))

theorem plain_of_isDigit {char : Char} (digit : isDigit char = true) : IsPlain char := by
  have range : 48 ≤ char.toNat ∧ char.toNat ≤ 57 := of_decide_eq_true digit
  refine ⟨?_, ?_, ?_, ?_⟩
  · unfold IsAscii
    omega
  · omega
  all_goals
    rintro rfl
    revert range
    decide

theorem plain_natText (value : Nat) : ∀ char ∈ natText value, IsPlain char :=
  fun char member => plain_of_isDigit ((isWhole_toDigits value).digits char member)

theorem FileId.plain (fileId : FileId) : ∀ char ∈ fileId.text, IsPlain char := by
  have both := fileId.canonical
  simp only [isFileIdText, Bool.and_eq_true, all_eq_true, contains_iff_mem] at both
  intro char member
  have hex : ∀ digit ∈ "0123456789abcdef".toList, IsPlain digit := by decide
  exact hex char (both.2 char member)

theorem Status.plain (status : Status) : ∀ char ∈ status.text, IsPlain char := by
  cases status <;> decide

variable {text : Text} {levels : Nat}

theorem scans_string (plain : ∀ char ∈ text, IsPlain char) :
    Scans levels (jsonString text) (.string (str text)) := by
  constructor
  case solid => exact ⟨'"', text ++ ['"'], rfl, by decide⟩
  case scan =>
    intro rest _
    have shape : jsonString text ++ rest = '"' :: (text ++ '"' :: rest) := by simp [jsonString]
    rw [shape, scanOnce, scanString_append plain]
    rfl

def textMember (name : String) (text : Text) : RenderedMember :=
  { name := name.toList, text := jsonString text, value := .string (str text) }

def natMember (name : String) (value : Nat) : RenderedMember :=
  { name := name.toList, text := natText value, value := .int value }

def bytesMember (name : String) (data : Bytes) : RenderedMember :=
  textMember name (Base64Url.encode data)

variable {name : String}

theorem textMember_sound (levels : Nat)
    (name_plain : ∀ char ∈ name.toList, IsPlain char) (plain : ∀ char ∈ text, IsPlain char) :
    (textMember name text).Sound levels :=
  { plain := name_plain
    scans := scans_string plain }

theorem natMember_sound (levels : Nat) {value : Nat}
    (name_plain : ∀ char ∈ name.toList, IsPlain char)
    (short : (natText value).length ≤ maxStrDigits) : (natMember name value).Sound levels :=
  { plain := name_plain
    scans := scans_nat levels short }

def chunkStateMembers (chunk : StoredChunk) : List RenderedMember :=
  [bytesMember "ciphertext_sha256" chunk.ciphertextSha256, natMember "length" chunk.length,
    bytesMember "resume_mac" chunk.resumeMac]

def chunkMember (chunk : StoredChunk) : RenderedMember :=
  { name := natText chunk.index
    text := jsonObject ((chunkStateMembers chunk).map rendered)
    value := .object ((chunkStateMembers chunk).map scanned) }

def manifestMembers (manifest : Manifest) : List RenderedMember :=
  [natMember "chunk_count" manifest.chunkCount, natMember "chunk_size" manifest.chunkSize,
    bytesMember "encrypted_metadata" manifest.encryptedMetadata,
    textMember "file_id" manifest.fileId.text, bytesMember "nonce_prefix" manifest.noncePrefix,
    natMember "plaintext_size" manifest.plaintextSize, bytesMember "salt" manifest.salt,
    natMember "version" manifest.version]

theorem manifestToJson_eq (manifest : Manifest) :
    manifestToJson manifest = jsonObject ((manifestMembers manifest).map rendered) := rfl

def namedChunks (record : Record Timestamp) : List StoredChunk :=
  record.receivedChunks.insertionSort fun left right => natText left.index ≤ natText right.index

def manifestMember (manifest : Manifest) : RenderedMember :=
  { name := "manifest".toList
    text := jsonObject ((manifestMembers manifest).map rendered)
    value := .object ((manifestMembers manifest).map scanned) }

def chunksMember (record : Record Timestamp) : RenderedMember :=
  { name := "received_chunks".toList
    text := jsonObject (((namedChunks record).map chunkMember).map rendered)
    value := .object (((namedChunks record).map chunkMember).map scanned) }

def timeMember (name : String) (numeral : FloatNumeral) : RenderedMember :=
  { name := name.toList, text := numeral.text, value := .float numeral.float }

def recordMembers (repr : Timestamp → FloatNumeral) (record : Record Timestamp) :
    List RenderedMember :=
  [timeMember "created_at" (repr record.createdAt), manifestMember record.manifest,
    chunksMember record, natMember "schema_version" 1, textMember "status" record.status.text,
    timeMember "updated_at" (repr record.updatedAt)]

def journalText (repr : Timestamp → FloatNumeral) (record : Record Timestamp) : Text :=
  recordToJson (fun time => (repr time).text) record

theorem journalText_eq (repr : Timestamp → FloatNumeral) (record : Record Timestamp) :
    journalText repr record = jsonObject ((recordMembers repr record).map rendered) := by
  unfold journalText recordToJson recordMembers chunksMember namedChunks
  simp only [map_map, manifestToJson_eq]
  rfl

theorem short_natText {value : Nat} (small : value < 10 ^ 12) :
    (natText value).length ≤ maxStrDigits :=
  (length_natText_le (by decide) small).trans (by decide)

variable {manifest : Manifest}

theorem chunkMember_sound {chunk : StoredChunk}
    (fits : chunk.Fits manifest) : (chunkMember chunk).Sound (levels + 1) := by
  have length := manifest.chunkLength_le chunk.index
  rw [manifest.chunkSize_eq, ← fits.length_eq] at length
  have bound : chunk.length < 10 ^ 12 := lt_of_le_of_lt length (by decide)
  constructor
  case plain => exact plain_natText chunk.index
  case scans =>
    apply scans_object
    · intro member inside
      simp only [chunkStateMembers, mem_cons, not_mem_nil, or_false] at inside
      rcases inside with rfl | rfl | rfl
      · exact textMember_sound levels (by decide) (plain_encode _)
      · exact natMember_sound levels (by decide) (short_natText bound)
      · exact textMember_sound levels (by decide) (plain_encode _)
    · have names : ((chunkStateMembers chunk).map fun member => str member.name) =
          [name "ciphertext_sha256", name "length", name "resume_mac"] := rfl
      rw [names]
      decide

theorem manifestMember_sound (levels : Nat) (manifest : Manifest) :
    (manifestMember manifest).Sound (levels + 1) := by
  have count := manifest.chunkCount_le
  have size := manifest.plaintextSize_le
  have countBound : manifest.chunkCount < 10 ^ 12 := lt_of_le_of_lt count (by decide)
  have sizeBound : manifest.plaintextSize < 10 ^ 12 := lt_of_le_of_lt size (by decide)
  have chunkBound : manifest.chunkSize < 10 ^ 12 := by
    rw [manifest.chunkSize_eq]
    decide
  have versionBound : manifest.version < 10 ^ 12 := by
    rw [manifest.version_eq]
    decide
  constructor
  case plain => exact (by decide : ∀ char ∈ "manifest".toList, IsPlain char)
  case scans =>
    apply scans_object
    · intro member inside
      simp only [manifestMembers, mem_cons, not_mem_nil, or_false] at inside
      rcases inside with rfl | rfl | rfl | rfl | rfl | rfl | rfl | rfl
      · exact natMember_sound levels (by decide) (short_natText countBound)
      · exact natMember_sound levels (by decide) (short_natText chunkBound)
      · exact textMember_sound levels (by decide) (plain_encode _)
      · exact textMember_sound levels (by decide) manifest.fileId.plain
      · exact textMember_sound levels (by decide) (plain_encode _)
      · exact natMember_sound levels (by decide) (short_natText sizeBound)
      · exact textMember_sound levels (by decide) (plain_encode _)
      · exact natMember_sound levels (by decide) (short_natText versionBound)
    · have names : ((manifestMembers manifest).map fun member => str member.name) =
          ["chunk_count", "chunk_size", "encrypted_metadata", "file_id", "nonce_prefix",
            "plaintext_size", "salt", "version"].map name := rfl
      rw [names]
      decide

theorem toNat_inj_of_mem {first second : Text} (same : str first = str second) : first = second :=
  map_injective_iff.mpr (fun _ _ equal => Char.toNat_inj.mp equal) same

theorem natText_injective : Function.Injective natText := by
  intro first second same
  have values := congrArg (fun text => Nat.ofDigitChars 10 text 0) same
  simpa only [natText, Nat.ofDigitChars_ten_toDigits] using values

theorem perm_namedChunks (record : Record Timestamp) :
    (namedChunks record).Perm record.receivedChunks :=
  perm_insertionSort _ _

variable {record : Record Timestamp}

theorem chunksMember_sound (valid : record.Valid) : (chunksMember record).Sound (levels + 2) := by
  constructor
  case plain => exact (by decide : ∀ char ∈ "received_chunks".toList, IsPlain char)
  case scans =>
    apply scans_object
    · intro member inside
      obtain ⟨chunk, named, rfl⟩ := mem_map.mp inside
      have received := (perm_namedChunks record).mem_iff.mp named
      exact chunkMember_sound (valid.chunks chunk received)
    · rw [map_map]
      have names : (namedChunks record).map ((fun member => str member.name) ∘ chunkMember) =
          ((namedChunks record).map StoredChunk.index).map fun index => str (natText index) := by
        rw [map_map]
        rfl
      rw [names]
      apply List.Nodup.map
      · intro first second same
        exact natText_injective (toNat_inj_of_mem same)
      · exact ((perm_namedChunks record).map _).nodup_iff.mpr valid.distinct

theorem timeMember_sound (levels : Nat)
    (plain : ∀ char ∈ name.toList, IsPlain char) (numeral : FloatNumeral) :
    (timeMember name numeral).Sound levels :=
  { plain := plain
    scans := scans_float levels numeral }

theorem scans_journalText (repr : Timestamp → FloatNumeral) (valid : record.Valid) (levels : Nat) :
    Scans (levels + 3) (journalText repr record)
      (.object ((recordMembers repr record).map scanned)) := by
  rw [journalText_eq]
  apply scans_object
  · intro member inside
    simp only [recordMembers, mem_cons, not_mem_nil, or_false] at inside
    rcases inside with rfl | rfl | rfl | rfl | rfl | rfl
    · exact timeMember_sound _ (by decide) _
    · exact manifestMember_sound _ _
    · exact chunksMember_sound valid
    · exact natMember_sound _ (by decide) (short_natText (by decide))
    · exact textMember_sound _ (by decide) record.status.plain
    · exact timeMember_sound _ (by decide) _
  · have names : ((recordMembers repr record).map fun member => str member.name) =
        ["created_at", "manifest", "received_chunks", "schema_version", "status",
          "updated_at"].map name := rfl
    rw [names]
    decide

theorem ascii_of_plain (plain : ∀ char ∈ text, IsPlain char) : ∀ char ∈ text, IsAscii char :=
  fun char member => (plain char member).1

theorem ascii_append {first second : Text} (left : ∀ char ∈ first, IsAscii char)
    (right : ∀ char ∈ second, IsAscii char) : ∀ char ∈ first ++ second, IsAscii char := by
  intro char member
  rcases mem_append.mp member with inFirst | inSecond
  · exact left char inFirst
  · exact right char inSecond

theorem ascii_cons {first : Char} {rest : Text} (head : IsAscii first)
    (tail : ∀ char ∈ rest, IsAscii char) : ∀ char ∈ first :: rest, IsAscii char :=
  forall_mem_cons.mpr ⟨head, tail⟩

theorem ascii_nil : ∀ char ∈ ([] : Text), IsAscii char := fun _ member => nomatch member

theorem ascii_jsonString (ascii : ∀ char ∈ text, IsAscii char) :
    ∀ char ∈ jsonString text, IsAscii char :=
  ascii_append (ascii_cons (by decide) ascii) (ascii_cons (by decide) ascii_nil)

theorem ascii_jsonMember {label value : Text} (left : ∀ char ∈ label, IsAscii char)
    (right : ∀ char ∈ value, IsAscii char) : ∀ char ∈ jsonMember label value, IsAscii char :=
  ascii_append (ascii_jsonString left) (ascii_cons (by decide) right)

theorem ascii_commaSeparated {members : List Text}
    (ascii : ∀ member ∈ members, ∀ char ∈ member, IsAscii char) :
    ∀ char ∈ commaSeparated members, IsAscii char := by
  fun_induction commaSeparated members with
  | case1 => exact ascii_nil
  | case2 member => exact ascii member (mem_cons_self ..)
  | case3 member rest _nonempty ih =>
    apply ascii_append (ascii member (mem_cons_self ..))
    exact ascii_cons (by decide) (ih fun other inside =>
      ascii other (mem_cons_of_mem _ inside))

theorem ascii_jsonObject {members : List Text}
    (ascii : ∀ member ∈ members, ∀ char ∈ member, IsAscii char) :
    ∀ char ∈ jsonObject members, IsAscii char :=
  ascii_append (ascii_cons (by decide) (ascii_commaSeparated ascii))
    (ascii_cons (by decide) ascii_nil)

theorem ascii_natText (value : Nat) : ∀ char ∈ natText value, IsAscii char :=
  ascii_of_plain (plain_natText value)

theorem ascii_bytes (data : Bytes) : ∀ char ∈ jsonString (Base64Url.encode data), IsAscii char :=
  ascii_jsonString (ascii_of_plain (plain_encode data))

theorem ascii_digits (digits : AllDigits text) : ∀ char ∈ text, IsAscii char :=
  ascii_of_plain fun char member => plain_of_isDigit (digits char member)

theorem ascii_exponentText (numeral : FloatNumeral) :
    ∀ char ∈ FloatNumeral.exponentText numeral.exponent, IsAscii char := by
  cases found : numeral.exponent with
  | none => exact ascii_nil
  | some signed =>
    have digits := (numeral.isExponent _ found).1
    have sign : IsAscii (if signed.1 = true then '-' else '+') := by
      cases signed.1 <;> decide
    exact ascii_cons (by decide) (ascii_cons sign (ascii_digits digits))

theorem ascii_numeral (numeral : FloatNumeral) : ∀ char ∈ numeral.text, IsAscii char := by
  have fraction : ∀ char ∈ (if numeral.fraction = [] then [] else '.' :: numeral.fraction),
      IsAscii char := by
    split
    · exact ascii_nil
    · exact ascii_cons (by decide) (ascii_digits numeral.isFraction)
  exact ascii_append (ascii_digits numeral.isWhole.digits)
    (ascii_append fraction (ascii_exponentText numeral))

theorem ascii_chunkToJson (chunk : StoredChunk) : ∀ char ∈ chunkToJson chunk, IsAscii char := by
  apply ascii_jsonMember (ascii_natText chunk.index)
  apply ascii_jsonObject
  intro member inside
  simp only [mem_cons, not_mem_nil, or_false] at inside
  rcases inside with rfl | rfl | rfl
  · exact ascii_jsonMember (by decide) (ascii_bytes _)
  · exact ascii_jsonMember (by decide) (ascii_natText _)
  · exact ascii_jsonMember (by decide) (ascii_bytes _)

theorem ascii_manifestToJson (manifest : Manifest) :
    ∀ char ∈ manifestToJson manifest, IsAscii char := by
  apply ascii_jsonObject
  intro member inside
  simp only [mem_cons, not_mem_nil, or_false] at inside
  rcases inside with rfl | rfl | rfl | rfl | rfl | rfl | rfl | rfl
  · exact ascii_jsonMember (by decide) (ascii_natText _)
  · exact ascii_jsonMember (by decide) (ascii_natText _)
  · exact ascii_jsonMember (by decide) (ascii_bytes _)
  · exact ascii_jsonMember (by decide) (ascii_jsonString (ascii_of_plain manifest.fileId.plain))
  · exact ascii_jsonMember (by decide) (ascii_bytes _)
  · exact ascii_jsonMember (by decide) (ascii_natText _)
  · exact ascii_jsonMember (by decide) (ascii_bytes _)
  · exact ascii_jsonMember (by decide) (ascii_natText _)

theorem ascii_journalText (repr : Timestamp → FloatNumeral) (record : Record Timestamp) :
    ∀ char ∈ journalText repr record, IsAscii char := by
  apply ascii_jsonObject
  intro member inside
  simp only [mem_cons, not_mem_nil, or_false] at inside
  rcases inside with rfl | rfl | rfl | rfl | rfl | rfl
  · exact ascii_jsonMember (by decide) (ascii_numeral _)
  · exact ascii_jsonMember (by decide) (ascii_manifestToJson _)
  · apply ascii_jsonMember (by decide)
    apply ascii_jsonObject
    intro text inside
    obtain ⟨chunk, _, rfl⟩ := mem_map.mp inside
    exact ascii_chunkToJson chunk
  · exact ascii_jsonMember (by decide) (ascii_natText _)
  · exact ascii_jsonMember (by decide) (ascii_jsonString (ascii_of_plain record.status.plain))
  · exact ascii_jsonMember (by decide) (ascii_numeral _)

/-- `_record_to_json`. -/
def journalBytes (repr : Timestamp → FloatNumeral) (record : Record Timestamp) : Bytes :=
  encodeAscii (journalText repr record)

theorem length_journalBytes (repr : Timestamp → FloatNumeral) (record : Record Timestamp) :
    (journalBytes repr record).length = (journalText repr record).length :=
  length_map ..

theorem loadState_journalBytes (repr : Timestamp → FloatNumeral)
    (valid : record.Valid) (levels : Nat) :
    loadState (levels + 3) (journalBytes repr record) =
      .ok (.object ((recordMembers repr record).map scanned)) := by
  have scans := scans_journalText repr valid levels
  have scanned := scans.scan [] delimited_nil
  have solid := scans.solid.skipWhitespace []
  rw [append_nil] at scanned solid
  have loaded : loads (levels + 3) (journalText repr record) =
      .ok (.object ((recordMembers repr record).map RenderedMember.scanned)) := by
    rw [loads, solid, scanned]
    rfl
  rw [loadState, journalBytes, decode_encodeAscii (ascii_journalText repr record)]
  simp only [loaded]

theorem require_of {condition : Prop} [Decidable condition] (holds : condition)
    (error : StateError) : require condition error = .ok () := if_pos holds

theorem requireInt_nat (value : Nat) (field : String) :
    requireInt (.int value) field = .ok value := by
  have notNegative : ¬ (value : Int) < 0 := Int.not_lt.mpr (Int.natCast_nonneg value)
  rw [requireInt, if_neg notNegative, Int.toNat_natCast]

theorem decodeBytes_encode (data : Bytes) (message : String) :
    decodeBytes (str (Base64Url.encode data)) message = .ok data := by
  rw [decodeBytes, str, Base64Url.decode_encode]

theorem map_ofNat_str (text : Text) : (str text).map Char.ofNat = text := by
  rw [str, map_map]
  have same : Char.ofNat ∘ Char.toNat = id := funext Char.ofNat_toNat
  rw [same, map_id]

theorem FileId.parse_text (fileId : FileId) : FileId.parse (str fileId.text) = some fileId := by
  have canonical : isFileIdText ((str fileId.text).map Char.ofNat) = true := by
    rw [map_ofNat_str]
    exact fileId.canonical
  rw [FileId.parse, dif_pos canonical]
  simp only [map_ofNat_str]

theorem Manifest.construct_self (manifest : Manifest) :
    Manifest.construct manifest.version (str manifest.fileId.text) manifest.plaintextSize
      manifest.chunkSize manifest.chunkCount manifest.salt manifest.noncePrefix
      manifest.encryptedMetadata = some manifest := by
  have sizes := And.intro manifest.version_eq (And.intro manifest.plaintextSize_le
    (And.intro manifest.chunkSize_eq manifest.chunkCount_eq))
  have lengths := And.intro manifest.salt_length (And.intro manifest.noncePrefix_length
    (And.intro manifest.metadata_length_ge manifest.metadata_length_le))
  rw [construct, FileId.parse_text]
  simp only
  rw [dif_pos sizes, dif_pos lengths]

theorem decodeManifest_members (manifest : Manifest) :
    decodeManifest (manifestMember manifest).value = .ok manifest := by
  have names : ((manifestMembers manifest).map scanned).map Prod.fst =
      ["chunk_count", "chunk_size", "encrypted_metadata", "file_id", "nonce_prefix",
        "plaintext_size", "salt", "version"].map name := rfl
  have exactly : HasExactly ((manifestMembers manifest).map scanned) manifestNames := by
    unfold HasExactly
    rw [names]
    decide
  refine bind_eq rfl ?_
  refine bind_eq (require_of exactly _) ?_
  refine bind_eq rfl ?_
  refine bind_eq rfl ?_
  refine bind_eq rfl ?_
  refine bind_eq rfl ?_
  refine bind_eq (requireInt_nat manifest.version _) ?_
  refine bind_eq (requireInt_nat manifest.plaintextSize _) ?_
  refine bind_eq (requireInt_nat manifest.chunkSize _) ?_
  refine bind_eq (requireInt_nat manifest.chunkCount _) ?_
  refine bind_eq (decodeBytes_encode manifest.salt _) ?_
  refine bind_eq (decodeBytes_encode manifest.noncePrefix _) ?_
  refine bind_eq (decodeBytes_encode manifest.encryptedMetadata _) ?_
  rw [manifest.construct_self]

theorem decodeStatus_text (status : Status) :
    decodeStatus (.string (str status.text)) = .ok status := by
  cases status <;> rfl

theorem isChunkName_natText (index : Nat) : IsChunkName (str (natText index)) := by
  have isWhole := isWhole_toDigits index
  refine ⟨?_, ?_⟩
  · intro empty
    exact isWhole.nonempty (map_eq_nil_iff.mp empty)
  · rcases isWhole.canonical with zero | other
    · left
      rw [natText, zero]
      rfl
    right
    refine ⟨?_, ?_⟩
    · intro code member
      obtain ⟨char, inside, rfl⟩ := mem_map.mp member
      exact of_decide_eq_true (isWhole.digits char inside)
    · rw [str, head?_map]
      intro same
      obtain ⟨char, isHead, code⟩ := Option.map_eq_some_iff.mp same
      have isZero : char = '0' := Char.toNat_inj.mp code
      exact other (isZero ▸ isHead)

theorem chunkIndex_natText (index : Nat) : chunkIndex (str (natText index)) = index := by
  rw [chunkIndex, map_ofNat_str, digitsValue, natText, Nat.ofDigitChars_ten_toDigits]

theorem decodeStoredChunk_member {chunk : StoredChunk} (fits : chunk.Fits manifest) :
    decodeStoredChunk manifest (chunkMember chunk).scanned = .ok chunk := by
  have count := manifest.chunkCount_le
  have inside := fits.inside
  have small : chunk.index < 10 ^ 12 := by
    simp only [eufMaxChunkCount] at count
    omega
  have short : (str (natText chunk.index)).length ≤ maxStrDigits := by
    rw [str, length_map]
    exact short_natText small
  have parsed : parseChunkIndex (str (natText chunk.index)) = .ok chunk.index := by
    rw [parseChunkIndex, if_neg (Nat.not_lt.mpr short), chunkIndex_natText]
  have expected : expectedChunkLength manifest chunk.index = .ok chunk.length := by
    simp only [expectedChunkLength, Manifest.encryptedChunkLength_of_lt inside, fits.length_eq]
  have names : ((chunkStateMembers chunk).map scanned).map Prod.fst =
      ["ciphertext_sha256", "length", "resume_mac"].map name := rfl
  have exactly : HasExactly ((chunkStateMembers chunk).map scanned) chunkNames := by
    unfold HasExactly
    rw [names]
    decide
  have lengths : chunk.resumeMac.length = 32 ∧ chunk.ciphertextSha256.length = 32 :=
    ⟨fits.resumeMac_length, fits.sha256_length⟩
  refine bind_eq (require_of (isChunkName_natText chunk.index) _) ?_
  refine bind_eq parsed ?_
  refine bind_eq expected ?_
  refine bind_eq rfl ?_
  refine bind_eq (require_of exactly _) ?_
  refine bind_eq (requireInt_nat chunk.length _) ?_
  refine bind_eq (require_of rfl _) ?_
  refine bind_eq rfl ?_
  refine bind_eq rfl ?_
  refine bind_eq (decodeBytes_encode chunk.resumeMac _) ?_
  refine bind_eq (decodeBytes_encode chunk.ciphertextSha256 _) ?_
  exact bind_eq (require_of lengths _) rfl

theorem decodeStoredChunks_members {chunks : List StoredChunk}
    (fits : ∀ chunk ∈ chunks, chunk.Fits manifest) :
    decodeStoredChunks manifest ((chunks.map chunkMember).map scanned) = .ok chunks := by
  induction chunks with
  | nil => rfl
  | cons chunk rest ih =>
    have here := decodeStoredChunk_member (fits chunk (mem_cons_self ..))
    have others := ih fun other member => fits other (mem_cons_of_mem _ member)
    rw [map_cons, map_cons, decodeStoredChunks, bind_of_ok here, bind_of_ok others]
    rfl

/-- The text is that of the timestamp: `float(repr(time)) == time`, and no text of a float
has more than 24 characters. -/
structure Writes (numeral : FloatNumeral) (time : Timestamp) : Prop where
  float_eq : numeral.float = .finite time
  short : numeral.text.length ≤ 24

theorem requireNumber_numeral {numeral : FloatNumeral} {time : Timestamp}
    (writes : Writes numeral time) (field : String) :
    requireNumber (.float numeral.float) field = .ok time := by
  rw [writes.float_eq]
  exact dif_pos time.property

instance : Std.Total fun left right : StoredChunk => left.index ≤ right.index where
  total left right := Nat.le_total left.index right.index

instance : IsTrans StoredChunk fun left right => left.index ≤ right.index where
  trans _ _ _ := Nat.le_trans

theorem sortChunks_eq_of_perm {first second : List StoredChunk} (perm : first.Perm second)
    (distinct : (first.map StoredChunk.index).Nodup) : sortChunks first = sortChunks second := by
  have left : (sortChunks first).Perm first := perm_insertionSort _ _
  have right : (sortChunks second).Perm second := perm_insertionSort _ _
  refine List.Perm.eq_of_pairwise ?_ (pairwise_insertionSort _ _)
    (pairwise_insertionSort _ _) (left.trans (perm.trans right.symm))
  intro chunk other inFirst inSecond below above
  have member := left.mem_iff.mp inFirst
  have otherMember := perm.symm.mem_iff.mp (right.mem_iff.mp inSecond)
  exact inj_on_of_nodup_map distinct member otherMember (Nat.le_antisymm below above)

variable {repr : Timestamp → FloatNumeral} {record : Record Timestamp}

theorem decodeHeader_journalBytes (valid : record.Valid)
    (size : (journalBytes repr record).length ≤ maxStateBytes) (levels : Nat) :
    decodeHeader (levels + 3) (journalBytes repr record) record.fileId.text =
      .ok
        { __ := record
          chunks := ((namedChunks record).map chunkMember).map scanned
          createdAt := .float (repr record.createdAt).float
          updatedAt := .float (repr record.updatedAt).float } := by
  have names : ((recordMembers repr record).map scanned).map Prod.fst =
      ["created_at", "manifest", "received_chunks", "schema_version", "status",
        "updated_at"].map name := rfl
  have exactly : HasExactly ((recordMembers repr record).map scanned) stateNames := by
    unfold HasExactly
    rw [names]
    decide
  refine bind_eq (require_of size _) ?_
  refine bind_eq (loadState_journalBytes repr valid levels) ?_
  refine bind_eq rfl ?_
  refine bind_eq (require_of exactly _) ?_
  refine bind_eq (requireInt_nat 1 _) ?_
  refine bind_eq (require_of rfl _) ?_
  refine bind_eq (decodeStatus_text record.status) ?_
  refine bind_eq (decodeManifest_members record.manifest) ?_
  refine bind_eq (require_of rfl _) ?_
  exact bind_eq rfl rfl

theorem decode_journalBytes (valid : record.Valid)
    (created : Writes (repr record.createdAt) record.createdAt)
    (updated : Writes (repr record.updatedAt) record.updatedAt)
    (size : (journalBytes repr record).length ≤ maxStateBytes) (levels : Nat) :
    decodeEncryptedState (levels + 3) (journalBytes repr record) record.fileId.text =
      .ok { record with receivedChunks := sortChunks record.receivedChunks } := by
  have fits : ∀ chunk ∈ namedChunks record, chunk.Fits record.manifest := fun chunk named =>
    valid.chunks chunk ((perm_namedChunks record).mem_iff.mp named)
  have complete : record.status = .partial_ ∨
      (namedChunks record).length = record.manifest.chunkCount := by
    rw [(perm_namedChunks record).length_eq]
    by_cases isPartial : record.status = .partial_
    · exact .inl isPartial
    · exact .inr (valid.final isPartial)
  have times : decodeTimestamps
      { __ := record
        chunks := ((namedChunks record).map chunkMember).map scanned
        createdAt := .float (repr record.createdAt).float
        updatedAt := .float (repr record.updatedAt).float } =
          .ok (record.createdAt, record.updatedAt) := by
    refine bind_eq (requireNumber_numeral created _) ?_
    refine bind_eq (requireNumber_numeral updated _) ?_
    exact bind_eq (require_of valid.timestamps _) rfl
  have sorted : sortChunks (namedChunks record) = sortChunks record.receivedChunks :=
    sortChunks_eq_of_perm (perm_namedChunks record)
      (((perm_namedChunks record).map _).nodup_iff.mpr valid.distinct)
  refine bind_eq (decodeHeader_journalBytes valid size levels) ?_
  refine bind_eq (decodeStoredChunks_members fits) ?_
  refine bind_eq (require_of complete _) ?_
  refine bind_eq times ?_
  rw [sorted]
  rfl

/-- The journal of a valid record is within the limit, and decoded to the same record with
its chunks in order: to the very record, where they are in order already. -/
theorem journal_roundTrip (levels : Nat) (repr : Timestamp → FloatNumeral)
    (record : Record Timestamp) (valid : record.Valid)
    (created : Writes (repr record.createdAt) record.createdAt)
    (updated : Writes (repr record.updatedAt) record.updatedAt) :
    (journalBytes repr record).length ≤ maxStateBytes ∧
      decodeEncryptedState (levels + 3) (journalBytes repr record) record.fileId.text =
        .ok { record with receivedChunks := sortChunks record.receivedChunks } ∧
      (record.receivedChunks.Pairwise (fun left right => left.index < right.index) →
        decodeEncryptedState (levels + 3) (journalBytes repr record) record.fileId.text =
          .ok record) := by
  have size : (journalBytes repr record).length ≤ maxStateBytes := by
    rw [length_journalBytes]
    exact valid.length_recordToJson_le created.short updated.short
  have decoded := decode_journalBytes valid created updated size levels
  refine ⟨size, decoded, ?_⟩
  intro ordered
  rw [decoded, sortChunks_of_ordered ordered]

def zeroNumeral : FloatNumeral :=
  { whole := ['0']
    fraction := ['0']
    exponent := none
    isWhole := ⟨by decide, by decide, .inl rfl⟩
    isFraction := by decide
    isExponent := fun _ none => nomatch none
    isFloat := Or.inl (by decide) }

theorem zeroNumeral_writes : Writes zeroNumeral ⟨0, le_refl 0⟩ :=
  { float_eq := by decide +kernel
    short := by decide }

def twoChunkManifest : Manifest :=
  { sampleManifest with
    fileId := sampleFileId
    plaintextSize := eufChunkSize + 1
    chunkCount := 2
    plaintextSize_le := by decide
    chunkCount_eq := by decide }

def sampleChunk (index : Nat) : StoredChunk :=
  { index := index
    length := twoChunkManifest.chunkLength index
    resumeMac := replicate 32 0
    ciphertextSha256 := replicate 32 0 }

def sampleTime : Timestamp := ⟨0, le_refl 0⟩

def sampleRecord (chunks : List StoredChunk) : Record Timestamp :=
  { manifest := twoChunkManifest
    status := .complete
    receivedChunks := chunks
    createdAt := sampleTime
    updatedAt := sampleTime }

theorem sampleChunk_fits {index : Nat} (inside : index < 2) :
    (sampleChunk index).Fits twoChunkManifest :=
  { inside := inside
    length_eq := rfl
    resumeMac_length := length_replicate ..
    sha256_length := length_replicate .. }

theorem sampleRecord_valid {first second : Nat} (small : first < 2 ∧ second < 2)
    (different : first ≠ second) :
    (sampleRecord [sampleChunk first, sampleChunk second]).Valid :=
  { chunks := by
      intro chunk member
      simp only [sampleRecord, mem_cons, not_mem_nil, or_false] at member
      rcases member with rfl | rfl
      · exact sampleChunk_fits small.1
      · exact sampleChunk_fits small.2
    distinct := by simp [sampleRecord, sampleChunk, different]
    final := fun _ => rfl
    timestamps := le_refl _ }

theorem sampleJournal_roundTrip :
    decodeEncryptedState 1000
      (journalBytes (fun _ => zeroNumeral) (sampleRecord [sampleChunk 0, sampleChunk 1]))
      sampleFileId.text = .ok (sampleRecord [sampleChunk 0, sampleChunk 1]) :=
  (journal_roundTrip 997 (fun _ => zeroNumeral) (sampleRecord [sampleChunk 0, sampleChunk 1])
    (sampleRecord_valid (by decide) (by decide)) zeroNumeral_writes zeroNumeral_writes).2.2
      (by decide)

/-- A record whose chunks stand in another order comes back as another record. -/
theorem unordered_journal_sorted :
    (sampleRecord [sampleChunk 1, sampleChunk 0]).Valid ∧
      decodeEncryptedState 1000
        (journalBytes (fun _ => zeroNumeral) (sampleRecord [sampleChunk 1, sampleChunk 0]))
        sampleFileId.text ≠ .ok (sampleRecord [sampleChunk 1, sampleChunk 0]) := by
  have valid : (sampleRecord [sampleChunk 1, sampleChunk 0]).Valid :=
    sampleRecord_valid (by decide) (by decide)
  have size : (journalBytes (fun _ => zeroNumeral)
      (sampleRecord [sampleChunk 1, sampleChunk 0])).length ≤ maxStateBytes := by
    rw [length_journalBytes]
    exact valid.length_recordToJson_le zeroNumeral_writes.short zeroNumeral_writes.short
  have decoded := decode_journalBytes valid zeroNumeral_writes zeroNumeral_writes size 997
  refine ⟨valid, ?_⟩
  intro same
  have chunks := congrArg Record.receivedChunks (Except.ok.inj (decoded.symm.trans same))
  have first := congrArg (fun chunks => chunks.map StoredChunk.index) chunks
  revert first
  decide

end XFerry.Encrypted
