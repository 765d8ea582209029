/-
The family of chunks that the encoded data of an upload may be sent in.

A family is known by its names: the numbers from zero on, in wire order, each as it is
written in decimal.  Whatever else the carrier holds stands anywhere between them.
-/

import XFerry.Advanced.CarrierIsolation
import XFerry.Json.Rendering
import XFerry.Lists

namespace XFerry.AdvancedPayload

open Python Http Json List

/-! ### Names of chunks -/

def chunkName (index : Nat) : Str := literal "data_" ++ str (Nat.toDigits 10 index)

def chunkNames (count : Nat) : List Str := (range count).map chunkName

/-- The names under which encoded data are taken: one for the whole, or those of a family. -/
def IsFamily (names : List Str) : Prop :=
  names = [FieldName.data.code] ∨ ∃ count, 1 ≤ count ∧ count ≤ 256 ∧ names = chunkNames count

theorem digitsAfter_eq_some {beginning name digits : Str} :
    digitsAfter beginning name = some digits ↔
      name = beginning ++ digits ∧ digits ≠ [] ∧ digits.all isDigitCode = true := by
  unfold digitsAfter
  simp only
  constructor
  · intro found
    split at found
    · case _ isDigits =>
        obtain ⟨begins, nonempty, all⟩ := isDigits
        obtain ⟨rest, same⟩ := isPrefixOf_iff_prefix.mp begins
        cases found
        rw [← same, drop_left] at nonempty all ⊢
        exact ⟨rfl, nonempty, all⟩
    · cases found
  · rintro ⟨rfl, nonempty, all⟩
    have begins : beginning.isPrefixOf (beginning ++ digits) = true :=
      isPrefixOf_iff_prefix.mpr (prefix_append _ _)
    rw [drop_left, if_pos ⟨begins, nonempty, all⟩]

theorem str_append (left right : Text) : str (left ++ right) = str left ++ str right := map_append

theorem str_injective : Function.Injective str :=
  map_injective_iff.mpr fun _ _ same => Char.toNat_inj.mp same

theorem isDigitCode_toNat (char : Char) : isDigitCode char.toNat = isDigit char := by
  have between : Between '0' '9' char ↔ 48 ≤ char.toNat ∧ char.toNat ≤ 57 := Iff.rfl
  unfold isDigitCode isDigit
  rw [decide_eq_decide.mpr between, Bool.decide_and]

theorem all_isDigitCode_str {text : Text} : (str text).all isDigitCode = true ↔ AllDigits text := by
  unfold str AllDigits
  rw [all_map, all_eq_true]
  simp only [Function.comp_apply, isDigitCode_toNat]

theorem exists_text_of_digits {digits : Str} (all : digits.all isDigitCode = true) :
    ∃ text : Text, str text = digits ∧ AllDigits text := by
  refine ⟨digits.map Char.ofNat, ?_⟩
  have same : str (digits.map Char.ofNat) = digits := by
    unfold str
    rw [map_map]
    conv_rhs => rw [← map_id digits]
    refine map_congr_left fun code member => ?_
    have isDigit := all_eq_true.mp all code member
    unfold isDigitCode at isDigit
    simp only [Bool.and_eq_true, decide_eq_true_eq] at isDigit
    have table : ∀ code, code < 58 → (Char.ofNat code).toNat = code := by decide
    exact table code (by omega)
  refine ⟨same, all_isDigitCode_str.mp ?_⟩
  rw [same]
  exact all

theorem codeValue_str (text : Text) : codeValue (str text) = Nat.ofDigitChars 10 text 0 := by
  unfold codeValue ofDigits str
  rw [map_map, foldl_map, Nat.ofDigitChars_eq_foldl]
  rfl

theorem chunkDigits_chunkName (index : Nat) :
    chunkDigits (chunkName index) = some (str (Nat.toDigits 10 index)) := by
  have isWhole := isWhole_toDigits index
  refine digitsAfter_eq_some.mpr ⟨rfl, ?_, all_isDigitCode_str.mpr isWhole.digits⟩
  exact fun empty => isWhole.nonempty (map_eq_nil_iff.mp empty)

theorem not_leadingZero (index : Nat) :
    ¬ (1 < (str (Nat.toDigits 10 index)).length ∧
      (str (Nat.toDigits 10 index)).head? = some 48) := by
  rintro ⟨long, leading⟩
  unfold str at long leading
  rw [head?_map] at leading
  rcases (isWhole_toDigits index).canonical with single | other
  · rw [single] at long
    exact absurd long (Nat.lt_irrefl 1)
  obtain ⟨char, isFirst, isZero⟩ := Option.map_eq_some_iff.mp leading
  have zero : char = '0' := Char.toNat_inj.mp isZero
  rw [zero] at isFirst
  exact other isFirst

theorem chunkName_codeValue {text : Text} (digits : AllDigits text) (nonempty : str text ≠ [])
    (canonical : ¬ (1 < (str text).length ∧ (str text).head? = some 48)) :
    chunkName (codeValue (str text)) = literal "data_" ++ str text := by
  have isWhole : IsWhole text := by
    refine ⟨digits, fun empty => nonempty (congrArg str empty), ?_⟩
    by_contra neither
    rw [not_or, not_not] at neither
    obtain ⟨notSingle, leading⟩ := neither
    refine canonical ⟨?_, ?_⟩
    · cases text with
      | nil => cases leading
      | cons char rest =>
        cases rest with
        | nil =>
          cases leading
          exact absurd rfl notSingle
        | cons other tail => exact Nat.succ_lt_succ (Nat.succ_pos _)
    · unfold str
      rw [head?_map, leading]
      rfl
  unfold chunkName
  rw [codeValue_str, toDigits_ofDigitChars isWhole]

theorem validateChunkName_eq_some {name : Str} {index : Nat} :
    validateChunkName name = .ok (some index) ↔ index ≤ 255 ∧ name = chunkName index := by
  constructor
  · intro valid
    unfold validateChunkName at valid
    split at valid
    · cases valid
    rename_i digits found
    obtain ⟨same, nonempty, all⟩ := digitsAfter_eq_some.mp found
    obtain ⟨text, rfl, isDigits⟩ := exists_text_of_digits all
    split at valid
    · cases valid
    rename_i canonical
    split at valid
    · cases valid
    split at valid
    · cases valid
    rename_i small
    cases valid
    refine ⟨Nat.not_lt.mp small, ?_⟩
    rw [same, chunkName_codeValue isDigits nonempty canonical]
  · rintro ⟨small, rfl⟩
    have few : (str (Nat.toDigits 10 index)).length ≤ 3 := by
      unfold str
      rw [length_map, Nat.length_toDigits_le_iff (by decide) (by decide)]
      omega
    have value : codeValue (str (Nat.toDigits 10 index)) = index := by
      rw [codeValue_str, Nat.ofDigitChars_ten_toDigits]
    unfold validateChunkName
    simp only [chunkDigits_chunkName]
    rw [if_neg (not_leadingZero index), if_neg (by unfold maxStrDigits; omega), value,
      if_neg (Nat.not_lt.mpr small)]

theorem validateChunkName_chunkName {index : Nat} (small : index ≤ 255) :
    validateChunkName (chunkName index) = .ok (some index) :=
  validateChunkName_eq_some.mpr ⟨small, rfl⟩

theorem fieldNamed_of_chunkDigits {name digits : Str} (found : chunkDigits name = some digits) :
    fieldNamed name = none := by
  unfold fieldNamed
  rw [find?_eq_none]
  intro field _ same
  rw [← of_decide_eq_true same] at found
  cases field <;> cases found

theorem fieldNamed_chunkName (index : Nat) : fieldNamed (chunkName index) = none :=
  fieldNamed_of_chunkDigits (chunkDigits_chunkName index)

theorem isDataName_chunkName (index : Nat) : isDataName (chunkName index) = true := by
  unfold isDataName
  rw [chunkDigits_chunkName, Option.isSome_some, Bool.or_true]

/-! ### Data beside the metadata -/

structure DataFields where
  whole : Option FieldOccurrence
  chunks : List (Nat × FieldOccurrence)

namespace CollectedFields

def dataFields (collected : CollectedFields) : DataFields :=
  { whole := collected.values .data, chunks := collected.chunks }

def withData (collected : CollectedFields) (data : DataFields) : CollectedFields :=
  { values := fun field => if field = .data then data.whole else collected.values field
    chunks := data.chunks }

theorem empty_withData : empty.withData { whole := none, chunks := [] } = empty := by
  unfold withData empty
  congr
  funext field
  exact ite_self none

end CollectedFields

def collectData (data : DataFields) (occurrence : FieldOccurrence) : Parsed DataFields :=
  (collectField true (CollectedFields.empty.withData data) occurrence).map
    CollectedFields.dataFields

theorem fieldNamed_eq_some {name : Str} {field : FieldName} (named : fieldNamed name = some field) :
    name = field.code :=
  (of_decide_eq_true (find?_some (p := fun field : FieldName => decide (field.code = name))
    named)).symm

variable {occurrence : FieldOccurrence}

theorem collectField_metadata
    (isMetadata : isDataName occurrence.name = false) (collected : CollectedFields)
    (data : DataFields) :
    collectField true (collected.withData data) occurrence =
      (collectField true collected occurrence).map fun next => next.withData data := by
  obtain ⟨notData, notChunk⟩ := Bool.or_eq_false_iff.mp isMetadata
  unfold collectField
  cases named : fieldNamed occurrence.name with
  | none =>
    have noChunk : validateChunkName occurrence.name = .ok none := by
      unfold validateChunkName
      rw [Option.isSome_eq_false_iff.mp notChunk |> Option.isNone_iff_eq_none.mp]
    simp only [noChunk]
    rfl
  | some field =>
    have other : field ≠ .data := by
      intro same
      rw [same] at named
      exact of_decide_eq_false notData (fieldNamed_eq_some named)
    have sameValue : (collected.withData data).values field = collected.values field := if_neg other
    simp only [sameValue]
    split
    · rfl
    congr
    funext any
    change (if any = field then some occurrence
      else if any = .data then data.whole else collected.values any) =
        if any = .data then data.whole
        else if any = field then some occurrence else collected.values any
    by_cases isData : any = .data
    · rw [if_pos isData, if_pos isData, if_neg (isData.trans_ne other.symm)]
    · rw [if_neg isData, if_neg isData]

theorem collectField_data (isData : isDataName occurrence.name = true) (collected : CollectedFields)
    {data next : DataFields} (isNext : collectData data occurrence = .ok next) :
    collectField true (collected.withData data) occurrence = .ok (collected.withData next) := by
  obtain ⟨alone, taken, rfl⟩ := Ensures.exists_of_map_eq_ok isNext
  unfold collectField at taken ⊢
  cases named : fieldNamed occurrence.name with
  | some field =>
    have sameField : field = .data := by
      rcases Bool.or_eq_true_iff.mp isData with isWhole | isChunk
      · rw [of_decide_eq_true isWhole, fieldNamed_code] at named
        exact (Option.some.inj named).symm
      obtain ⟨digits, found⟩ := Option.isSome_iff_exists.mp isChunk
      rw [fieldNamed_of_chunkDigits found] at named
      cases named
    cases sameField
    simp only [named] at taken ⊢
    have sameValue : (collected.withData data).values .data =
        (CollectedFields.empty.withData data).values .data := rfl
    rw [sameValue]
    split at taken
    · cases taken
    rename_i absent
    cases taken
    rw [if_neg absent]
    unfold CollectedFields.withData CollectedFields.dataFields
    congr
    funext any
    change (if any = .data then some occurrence
      else if any = .data then data.whole else collected.values any) =
        if any = .data then some occurrence else collected.values any
    by_cases isWhole : any = .data
    · rw [if_pos isWhole, if_pos isWhole]
    · rw [if_neg isWhole, if_neg isWhole, if_neg isWhole]
  | none =>
    simp only [named] at taken ⊢
    obtain ⟨index, isChunk, taken⟩ := Ensures.bind_eq_ok.mp taken
    rw [Ensures.bind_of_ok isChunk]
    cases index with
    | none => cases taken
    | some index =>
      cases taken
      rfl

theorem foldlM_collectField_weave {others data occurrences : List FieldOccurrence}
    (woven : Weave others data occurrences)
    (metadata : ∀ occurrence ∈ others, isDataName occurrence.name = false)
    (isData : ∀ occurrence ∈ data, isDataName occurrence.name = true) {collected : DataFields}
    (taken : data.foldlM collectData { whole := none, chunks := [] } = .ok collected) :
    occurrences.foldlM (collectField true) .empty =
      (others.foldlM (collectField true) .empty).map fun rest => rest.withData collected := by
  have folded : occurrences.foldlM (collectField true)
      (CollectedFields.empty.withData { whole := none, chunks := [] }) =
        (others.foldlM (collectField true) .empty).map fun rest => rest.withData collected := by
    refine woven.foldlM_eq CollectedFields.withData ?_ ?_ taken
    · intro occurrence member rest data
      exact collectField_metadata (metadata occurrence member) rest data
    · intro occurrence member rest data next
      exact collectField_data (isData occurrence member) rest
  rw [CollectedFields.empty_withData] at folded
  exact folded

/-! ### The whole, and its pieces -/

def wholeField (whole : Str) : Str × Value := (FieldName.data.code, .string whole)

def pieceFieldsFrom (first : Nat) (pieces : List Str) : List (Str × Value) :=
  (pieces.zipIdx first).map fun piece => (chunkName piece.2, .string piece.1)

def pieceFields (pieces : List Str) : List (Str × Value) := pieceFieldsFrom 0 pieces

def numberedPieces (first : Nat) (pieces : List Str) : List (Nat × FieldOccurrence) :=
  (pieces.zipIdx first).map fun piece =>
    (piece.2, bareOccurrence (chunkName piece.2, .string piece.1))

theorem collectData_whole (whole : Str) :
    [bareOccurrence (wholeField whole)].foldlM collectData { whole := none, chunks := [] } =
      .ok { whole := some (bareOccurrence (wholeField whole)), chunks := [] } := by
  rfl

theorem collectData_chunk {index : Nat} (small : index ≤ 255) (piece : Str)
    (chunks : List (Nat × FieldOccurrence)) :
    collectData { whole := none, chunks := chunks }
        (bareOccurrence (chunkName index, .string piece)) =
      .ok
        { whole := none
          chunks := chunks ++ [(index, bareOccurrence (chunkName index, .string piece))] } := by
  unfold collectData collectField bareOccurrence
  simp only [fieldNamed_chunkName, validateChunkName_chunkName small]
  rfl

variable {pieces : List Str}

theorem collectData_pieces {first : Nat} (few : first + pieces.length ≤ 256)
    (chunks : List (Nat × FieldOccurrence)) :
    ((pieceFieldsFrom first pieces).map bareOccurrence).foldlM collectData
        { whole := none, chunks := chunks } =
      .ok { whole := none, chunks := chunks ++ numberedPieces first pieces } := by
  induction pieces generalizing first chunks with
  | nil =>
    rw [numberedPieces, zipIdx_nil, map_nil, append_nil]
    rfl
  | cons piece rest ih =>
    rw [length_cons] at few
    have small : first ≤ 255 := by omega
    have laterFew : first + 1 + rest.length ≤ 256 := by omega
    have later := ih laterFew (chunks ++ [(first, bareOccurrence (chunkName first, .string piece))])
    unfold pieceFieldsFrom numberedPieces at later ⊢
    rw [zipIdx_cons, map_cons, map_cons, foldlM_cons,
      Ensures.bind_of_ok (collectData_chunk small piece chunks), later, map_cons,
      append_assoc]
    rfl

theorem numberedPieces_inOrder (first : Nat) (pieces : List Str) :
    InWireOrder ((numberedPieces first pieces).map Prod.snd) := by
  unfold InWireOrder numberedPieces
  rw [map_map]
  refine pairwise_map.mpr ?_
  exact pairwise_of_forall fun _ _ => Nat.le_refl 0

theorem checkChunks_pieces (first : Nat) (pieces : List Str) :
    checkChunks first (numberedPieces first pieces) = .ok () := by
  induction pieces generalizing first with
  | nil => rfl
  | cons piece rest ih =>
    unfold numberedPieces
    rw [zipIdx_cons, map_cons, checkChunks, if_neg (not_not.mpr rfl)]
    exact ih (first + 1)

theorem mapM_pieces (first : Nat) (pieces : List Str) :
    ((numberedPieces first pieces).mapM fun chunk => fieldAsString chunk.2) = .ok pieces := by
  induction pieces generalizing first with
  | nil => rfl
  | cons piece rest ih =>
    have later := ih (first + 1)
    unfold numberedPieces at later ⊢
    rw [zipIdx_cons, map_cons, mapM_cons, later]
    rfl

theorem settleMetadata_withData (source : PayloadSource) (collected : CollectedFields)
    (data : DataFields) (encodedData : Option Str) :
    settleMetadata source (collected.withData data) encodedData =
      settleMetadata source collected encodedData := rfl

theorem declaredName_withData (source : PayloadSource) (collected : CollectedFields)
    (data : DataFields) :
    declaredName source (collected.withData data) = declaredName source collected := rfl

variable {collected : CollectedFields} {source : PayloadSource} {encodedData : Option Str}

theorem settleFields_eq
    (single : ¬ ((collected.values .data).isSome = true ∧ collected.chunks ≠ []))
    (numbered : checkChunks 0 (sortedChunks collected.chunks) = .ok ())
    (encoded : encodedDataOf source collected (sortedChunks collected.chunks) = .ok encodedData) :
    settleFields source collected = settleMetadata source collected encodedData := by
  unfold settleFields
  rw [if_neg single]
  simp only
  rw [numbered, encoded]
  rfl

/-- A carrier whose fields alone make the data, in one or in chunks. -/
structure TakesChunks (source : PayloadSource) : Prop where
  allowed : source.allowChunks = true
  noRawData : source.rawData = none
  noOverride : source.encodedOverride = none

section Assembly

variable {source : PayloadSource} {others fields : List (Str × Value)}

def payloadOf (source : PayloadSource) (others : List (Str × Value)) (encodedData : Str) :
    Parsed CanonicalAdvancedPayload := do
  let rest ← (others.map bareOccurrence).foldlM (collectField true) .empty
  let settled ← settleMetadata source rest (some encodedData)
  let name ← declaredName source rest
  namePayload source settled name

theorem buildPayload_weave (takes : TakesChunks source) {data : List (Str × Value)}
    (woven : Weave others data fields) (metadata : ∀ field ∈ others, isDataName field.1 = false)
    (isData : ∀ field ∈ data, isDataName field.1 = true) {collected : DataFields}
    (taken : (data.map bareOccurrence).foldlM collectData { whole := none, chunks := [] } =
      .ok collected) {encodedData : Str}
    (settles : ∀ rest : CollectedFields, settleFields source (rest.withData collected) =
      settleMetadata source (rest.withData collected) (some encodedData)) :
    buildPayload source (fields.map bareOccurrence) = payloadOf source others encodedData := by
  have folded := foldlM_collectField_weave (woven.map bareOccurrence)
    (forall_mem_map.mpr metadata) (forall_mem_map.mpr isData) taken
  unfold buildPayload payloadOf
  rw [takes.allowed, folded]
  cases (others.map bareOccurrence).foldlM (collectField true) .empty with
  | error fault => rfl
  | ok rest =>
    change (do
      let settled ← settleFields source (rest.withData collected)
      let name ← declaredName source (rest.withData collected)
      namePayload source settled name) = _
    rw [settles, settleMetadata_withData, declaredName_withData]
    rfl

theorem isDataName_wholeField (whole : Str) : isDataName (wholeField whole).1 = true := rfl

theorem buildPayload_whole (takes : TakesChunks source) {whole : Str}
    (woven : Weave others [wholeField whole] fields)
    (metadata : ∀ field ∈ others, isDataName field.1 = false) :
    buildPayload source (fields.map bareOccurrence) = payloadOf source others whole := by
  refine buildPayload_weave takes woven metadata ?_ (collectData_whole whole) fun rest => ?_
  · intro field member
    rw [mem_singleton.mp member]
    exact isDataName_wholeField whole
  · refine settleFields_eq (fun both => both.2 rfl) ?_ ?_
    · change checkChunks 0 (sortedChunks []) = _
      have sorted : sortedChunks [] = [] := mergeSort_nil
      rw [sorted, checkChunks]
    · unfold encodedDataOf
      rw [takes.noOverride]
      rfl

theorem mem_pieceFields {field : Str × Value}
    (member : field ∈ pieceFields pieces) : ∃ index, field.1 = chunkName index := by
  obtain ⟨piece, _, rfl⟩ := mem_map.mp member
  exact ⟨piece.2, rfl⟩

theorem buildPayload_pieces (takes : TakesChunks source)
    (nonempty : pieces ≠ []) (few : pieces.length ≤ 256)
    (woven : Weave others (pieceFields pieces) fields)
    (metadata : ∀ field ∈ others, isDataName field.1 = false) :
    buildPayload source (fields.map bareOccurrence) = payloadOf source others pieces.flatten := by
  have fromZero : 0 + pieces.length ≤ 256 := by omega
  have taken := collectData_pieces fromZero []
  refine buildPayload_weave takes woven metadata ?_ taken fun rest => ?_
  · intro field member
    obtain ⟨index, same⟩ := mem_pieceFields member
    rw [same]
    exact isDataName_chunkName index
  · have sorted := sortedChunks_of_inOrder (numberedPieces_inOrder 0 pieces)
    refine settleFields_eq (fun both => absurd both.1 Bool.false_ne_true) ?_ ?_
    · change checkChunks 0 (sortedChunks (numberedPieces 0 pieces)) = _
      rw [sorted, checkChunks_pieces]
    · change encodedDataOf source _ (sortedChunks (numberedPieces 0 pieces)) = _
      have some_ : numberedPieces 0 pieces ≠ [] := by
        intro empty
        have noPieces := map_eq_nil_iff.mp empty
        exact nonempty (zipIdx_eq_nil_iff.mp noPieces)
      unfold encodedDataOf
      rw [takes.noOverride, sorted]
      rw [if_neg some_, mapM_pieces]
      rfl

theorem settleMetadata_encodedData :
    Ensures (settleMetadata source collected encodedData) fun settled =>
      settled.encodedData = encodedData := by
  refine .andThen fun _ => .andThen fun encoding => .andThen fun encryption =>
    .andThen fun encodedKey => .andThen fun isBase64 => .andThen fun key => .andThen fun hmac =>
    .andThen fun _ => .andThen fun methodOverride => ?_
  exact .ok rfl

theorem payloadOf_encodedData {encodedData : Str} :
    Ensures (payloadOf source others encodedData) fun payload =>
      payload.encodedData = some encodedData := by
  refine .andThen fun rest => .bind settleMetadata_encodedData fun settled same =>
    .andThen fun name => .andThen fun _ => ?_
  exact .ok same

end Assembly

/-! ### Families that are taken -/

def isChunkName (name : Str) : Bool := (chunkDigits name).isSome

def dataNames (names : List Str) : List Str := names.filter isDataName

/-- What has been collected of the data, of the occurrences passed so far. -/
structure DataPassed (passed : List FieldOccurrence) (collected : CollectedFields) : Prop where
  whole : (passed.map FieldOccurrence.name).filter (fun name => name = FieldName.data.code) =
    if (collected.values .data).isSome = true then [FieldName.data.code] else []
  chunks : (passed.map FieldOccurrence.name).filter isChunkName =
    collected.chunks.map fun chunk => chunkName chunk.1
  small : ∀ chunk ∈ collected.chunks, chunk.1 ≤ 255

theorem code_eq_data {field : FieldName} : field.code = FieldName.data.code ↔ field = .data := by
  constructor
  · intro same
    have named := fieldNamed_code field
    rw [same, fieldNamed_code] at named
    exact (Option.some.inj named).symm
  · rintro rfl
    rfl

theorem isChunkName_code (field : FieldName) : isChunkName field.code = false := by
  cases field <;> decide

theorem chunkName_ne_data (index : Nat) : chunkName index ≠ FieldName.data.code := by
  intro same
  have named := fieldNamed_chunkName index
  rw [same, fieldNamed_code] at named
  cases named

variable {passed : List FieldOccurrence}

theorem collectField_passed {allowChunks : Bool} (holds : DataPassed passed collected) :
    Ensures (collectField allowChunks collected occurrence)
      (DataPassed (passed ++ [occurrence])) := by
  intro next taken
  unfold collectField at taken
  cases named : fieldNamed occurrence.name with
  | some field =>
    simp only [named] at taken
    have isField := fieldNamed_eq_some named
    split at taken
    · cases taken
    rename_i absent
    cases taken
    refine ⟨?_, ?_, holds.small⟩
    · rw [map_append, filter_append, holds.whole, map_singleton, isField]
      by_cases isData : field = .data
      · cases isData
        rw [if_neg absent]
        rfl
      have other : ¬ field.code = FieldName.data.code := fun same =>
        isData (code_eq_data.mp same)
      rw [filter_cons_of_neg (by rw [decide_eq_true_eq]; exact other), filter_nil, append_nil]
      simp only [if_neg (Ne.symm isData)]
    · rw [map_append, filter_append, holds.chunks, map_singleton, isField,
        filter_cons_of_neg (by rw [isChunkName_code]; exact Bool.false_ne_true),
        filter_nil, append_nil]
  | none =>
    simp only [named] at taken
    obtain ⟨index, isChunk, taken⟩ := Ensures.bind_eq_ok.mp taken
    cases index with
    | none => cases taken
    | some index =>
      obtain ⟨small, isName⟩ := validateChunkName_eq_some.mp isChunk
      simp only at taken
      split at taken
      · cases taken
      · cases taken
        refine ⟨?_, ?_, ?_⟩
        · rw [map_append, filter_append, holds.whole, map_singleton, isName,
            filter_cons_of_neg (by
              rw [decide_eq_true_eq]
              exact chunkName_ne_data index),
            filter_nil, append_nil]
        · have isChunk : isChunkName (chunkName index) = true := by
            unfold isChunkName
            rw [chunkDigits_chunkName]
            rfl
          rw [map_append, filter_append, holds.chunks, map_singleton, isName,
            filter_cons_of_pos isChunk, filter_nil, map_append]
          rfl
        · intro chunk member
          rcases mem_append.mp member with before | last
          · exact holds.small chunk before
          · rw [mem_singleton.mp last]
            exact small

theorem foldlM_collectField_passed (allowChunks : Bool) (occurrences : List FieldOccurrence) :
    Ensures (occurrences.foldlM (collectField allowChunks) .empty) (DataPassed occurrences) := by
  have start : DataPassed [] CollectedFields.empty :=
    ⟨rfl, rfl, fun chunk member => absurd member not_mem_nil⟩
  exact .foldlM_passed (fun passed occurrence collected => collectField_passed) start occurrences

variable {chunks : List (Nat × FieldOccurrence)}

theorem checkChunks_eq_ok {expected : Nat} (numbered : checkChunks expected chunks = .ok ()) :
    chunks.map Prod.fst = range' expected chunks.length := by
  induction chunks generalizing expected with
  | nil => rfl
  | cons chunk rest ih =>
    rw [checkChunks] at numbered
    split at numbered
    · cases numbered
    rename_i same
    obtain ⟨_, _, numbered⟩ := Ensures.bind_eq_ok.mp numbered
    rw [map_cons, ih numbered, length_cons, range'_succ, not_not.mp same]

theorem DataPassed.names_of_whole
    (holds : DataPassed passed collected) (isWhole : (collected.values .data).isSome = true)
    (noChunks : collected.chunks = []) :
    dataNames (passed.map FieldOccurrence.name) = [FieldName.data.code] := by
  have noChunk := holds.chunks
  rw [noChunks, map_nil, filter_eq_nil_iff] at noChunk
  have alone := holds.whole
  rw [if_pos isWhole] at alone
  rw [← alone]
  refine filter_congr fun name member => ?_
  have notChunk : (chunkDigits name).isSome = false := Bool.eq_false_iff.mpr (noChunk name member)
  unfold isDataName
  rw [notChunk, Bool.or_false]

theorem DataPassed.names_of_chunks
    (holds : DataPassed passed collected) (noWhole : ¬ (collected.values .data).isSome = true) :
    dataNames (passed.map FieldOccurrence.name) =
      collected.chunks.map fun chunk => chunkName chunk.1 := by
  have none_ := holds.whole
  rw [if_neg noWhole, filter_eq_nil_iff] at none_
  rw [← holds.chunks]
  refine filter_congr fun name member => ?_
  unfold isDataName isChunkName
  rw [Bool.eq_false_iff.mpr (none_ name member), Bool.false_or]

theorem isFamily_of_numbered (nonempty : chunks ≠ [])
    (small : ∀ chunk ∈ chunks, chunk.1 ≤ 255) (numbered : checkChunks 0 chunks = .ok ()) :
    IsFamily (chunks.map fun chunk => chunkName chunk.1) := by
  have indices := checkChunks_eq_ok numbered
  have positive : 1 ≤ chunks.length := length_pos_iff.mpr nonempty
  refine .inr ⟨chunks.length, positive, ?_, ?_⟩
  · have last : chunks.length - 1 ∈ chunks.map Prod.fst := by
      rw [indices, mem_range'_1]
      omega
    obtain ⟨chunk, member, same⟩ := mem_map.mp last
    have bounded := small chunk member
    omega
  · unfold chunkNames
    rw [range_eq_range', ← indices, map_map]
    rfl

theorem buildPayload_family (takes : TakesChunks source)
    {occurrences : List FieldOccurrence} (inOrder : InWireOrder occurrences) :
    Ensures (buildPayload source occurrences) fun _ =>
      IsFamily (dataNames (occurrences.map FieldOccurrence.name)) := by
  intro payload built
  obtain ⟨collected, taken, built⟩ := Ensures.bind_eq_ok.mp built
  obtain ⟨settled, isSettled, _⟩ := Ensures.bind_eq_ok.mp built
  have passed := foldlM_collectField_passed _ occurrences collected taken
  have sorted := sortedChunks_of_inOrder
    (List.Pairwise.sublist (foldlM_collectField_inOrder taken) inOrder)
  unfold settleFields at isSettled
  split at isSettled
  · cases isSettled
  rename_i single
  obtain ⟨_, numbered, isSettled⟩ := Ensures.bind_eq_ok.mp isSettled
  obtain ⟨encodedData, encoded, isSettled⟩ := Ensures.bind_eq_ok.mp isSettled
  obtain ⟨_, checked, _⟩ := Ensures.bind_eq_ok.mp isSettled
  rw [sorted] at numbered encoded
  by_cases isWhole : (collected.values .data).isSome = true
  · have noChunks : collected.chunks = [] := not_not.mp fun chunks => single ⟨isWhole, chunks⟩
    exact .inl (passed.names_of_whole isWhole noChunks)
  rw [passed.names_of_chunks isWhole]
  refine isFamily_of_numbered ?_ passed.small numbered
  intro noChunks
  have absent : collected.values .data = none := Option.not_isSome_iff_eq_none.mp isWhole
  unfold encodedDataOf at encoded
  rw [takes.noOverride, absent, noChunks] at encoded
  cases encoded
  unfold checkData at checked
  rw [takes.noRawData] at checked
  cases checked

end XFerry.AdvancedPayload
