/-
Which uploads end in an exception that the parser does not name.

There are five ways: the number of a chunk has more digits than `int` converts, a JSON
body holds such a number or nests too deep, a JSON body is sound but for a lone surrogate
in its name, and the reader of multipart headers raises.
-/

import XFerry.Advanced.CarrierIsolation
import XFerry.Advanced.PayloadDecoding

namespace XFerry.AdvancedPayload

open Python Http Json List FieldOccurrence Ensures

/-! ### Exceptions that nothing catches -/

def Raises {α : Type} (computation : Parsed α) : Prop :=
  ∃ exception, computation = .error (.uncaught exception)

section Raises

variable {α β : Type}

theorem not_raises_ok (result : α) : ¬ Raises (.ok result : Parsed α) := by
  rintro ⟨exception, same⟩
  cases same

theorem not_raises_reject (error : AdvancedPayloadError) : ¬ Raises (reject error : Parsed α) := by
  rintro ⟨exception, same⟩
  cases same

theorem not_raises_invalidField (field : Str) : ¬ Raises (invalidField field : Parsed α) :=
  not_raises_reject _

theorem raises_uncaught (exception : Uncaught) :
    Raises (.error (.uncaught exception) : Parsed α) := ⟨exception, rfl⟩

variable {computation : Parsed α}

theorem raises_bind {next : α → Parsed β} :
    Raises (computation >>= next) ↔
      Raises computation ∨ ∃ result, computation = .ok result ∧ Raises (next result) := by
  cases computation with
  | error failure =>
    constructor
    · rintro ⟨exception, same⟩
      cases same
      exact .inl ⟨exception, rfl⟩
    · rintro (⟨exception, same⟩ | ⟨result, same, _⟩)
      · cases same
        exact ⟨exception, rfl⟩
      · cases same
  | ok result =>
    constructor
    · exact fun raised => .inr ⟨result, rfl, raised⟩
    · rintro (raised | ⟨other, same, raised⟩)
      · exact absurd raised (not_raises_ok result)
      · cases same
        exact raised

theorem not_raises_bind {next : α → Parsed β} (first : ¬ Raises computation)
    (rest : ∀ result, computation = .ok result → ¬ Raises (next result)) :
    ¬ Raises (computation >>= next) := by
  rw [raises_bind]
  rintro (raised | ⟨result, computed, raised⟩)
  · exact first raised
  · exact rest result computed raised

theorem not_raises_map (change : α → β) (quiet : ¬ Raises computation) :
    ¬ Raises (computation.map change) := by
  rintro ⟨exception, raised⟩
  cases computation with
  | error failure =>
    cases raised
    exact quiet ⟨exception, rfl⟩
  | ok result => cases raised

theorem not_raises_ite {condition : Prop} [Decidable condition] {left right : Parsed α}
    (ifTrue : condition → ¬ Raises left) (ifFalse : ¬ condition → ¬ Raises right) :
    ¬ Raises (if condition then left else right) := by
  by_cases holds : condition
  · rw [if_pos holds]
    exact ifTrue holds
  · rw [if_neg holds]
    exact ifFalse holds

theorem not_raises_check {refused : Prop} [Decidable refused] {field : Str} {rest : Parsed α}
    (passes : ¬ refused → ¬ Raises rest) :
    ¬ Raises (if refused then invalidField field else rest) :=
  not_raises_ite (fun _ => not_raises_invalidField field) passes

theorem not_raises_mapM {step : α → Parsed β} {items : List α}
    (quiet : ∀ item ∈ items, ¬ Raises (step item)) : ¬ Raises (items.mapM step) := by
  induction items with
  | nil => exact not_raises_ok []
  | cons item rest ih =>
    obtain ⟨first, others⟩ := forall_mem_cons.mp quiet
    rw [mapM_cons]
    refine not_raises_bind first fun result _ => not_raises_bind (ih others) fun results _ => ?_
    exact not_raises_ok _

end Raises

/-! ### Text without lone surrogates -/

def Encodable (codes : Str) : Prop := ∀ code ∈ codes, isSurrogate code = false

theorem encodable_str (text : Text) : Encodable (str text) := by
  intro code member
  obtain ⟨char, _, rfl⟩ := mem_map.mp member
  exact isSurrogate_toNat char

theorem encode_of_encodable {codes : Str} (encodable : Encodable codes) :
    ∃ bytes, encode codes = some bytes :=
  Option.isSome_iff_exists.mp (encode_isSome.mpr encodable)

theorem percentDecode_encodable (plusToSpace : Bool) {codes : Str} (encodable : Encodable codes) :
    percentDecode plusToSpace codes ≠ .error .notEncodable := by
  have prepended : ∀ first rest, rest ≠ .error .notEncodable →
      prepend first rest ≠ .error .notEncodable := by
    rintro first (fault | bytes) known same
    · exact known same
    · cases same
  fun_induction percentDecode plusToSpace codes with
  | case1 => exact fun same => nomatch same
  | case2 high low rest highValue isHigh lowValue isLow ih =>
    refine prepended _ _ (ih fun code member => encodable code ?_)
    simp [member]
  | case3 => exact fun same => nomatch same
  | case4 => exact fun same => nomatch same
  | case5 code rest _ _ _ ih =>
    refine prepended _ _ (ih fun other member => encodable other ?_)
    simp [member]
  | case6 code rest _ _ _ lone =>
    have isSome := encodePoint_isSome.mpr (encodable code mem_cons_self)
    rw [lone] at isSome
    cases isSome
  | case7 code rest _ _ _ bytes _ ih =>
    refine prepended _ _ (ih fun other member => encodable other ?_)
    simp [member]

theorem strictPercentDecodeBytes_quiet (plusToSpace : Bool) (text : Text) :
    ¬ Raises (strictPercentDecodeBytes (str text) plusToSpace) := by
  have known := percentDecode_encodable plusToSpace (encodable_str text)
  unfold strictPercentDecodeBytes
  cases decoded : percentDecode plusToSpace (str text) with
  | ok bytes => exact not_raises_ok bytes
  | error fault =>
    cases fault with
    | badEscape => exact not_raises_invalidField _
    | notEncodable => exact absurd decoded known

theorem strictPercentDecodeText_quiet (text : Text) (plusToSpace : Bool) :
    ¬ Raises (strictPercentDecodeText text plusToSpace) := by
  refine not_raises_bind (strictPercentDecodeBytes_quiet plusToSpace text) fun bytes _ => ?_
  split
  · exact not_raises_invalidField _
  · exact not_raises_ok _

/-! ### Scans raise nothing -/

theorem scanOccurrences_quiet {α : Type} {classify : α → Classified} (items : List α)
    (quiet : ∀ item, ¬ Raises (classify item)) : ¬ Raises (scanOccurrences classify items) := by
  refine not_raises_bind (not_raises_mapM fun item _ => ?_) fun found _ => not_raises_ok _
  exact not_raises_map _ (quiet item.1)

theorem headerValueAfterSeparator_quiet (rawValue : Text) (field : Str) :
    ¬ Raises (headerValueAfterSeparator rawValue field) := by
  unfold headerValueAfterSeparator
  split
  · exact not_raises_invalidField _
  · exact not_raises_ok _
  · exact not_raises_ok _

theorem classifyHeader_quiet (field : HeaderField) : ¬ Raises (classifyHeader field) := by
  refine not_raises_check fun _ => ?_
  split
  · exact not_raises_invalidField _
  split
  · refine not_raises_ite (fun _ => not_raises_ok _) fun _ => ?_
    exact not_raises_check fun _ => not_raises_ok _
  refine not_raises_bind ?_ fun value _ => ?_
  · refine not_raises_bind (headerValueAfterSeparator_quiet _ _) fun value _ => ?_
    exact not_raises_check fun _ => not_raises_ok _
  · exact not_raises_check fun _ => not_raises_ok _

theorem parseQueryPairs_quiet (rawQuery : Text) : ¬ Raises (parseQueryPairs rawQuery) := by
  refine not_raises_ite (fun _ => not_raises_ok _) fun _ => not_raises_mapM fun part _ => ?_
  refine not_raises_bind (strictPercentDecodeText_quiet _ _) fun key _ => ?_
  exact not_raises_bind (strictPercentDecodeText_quiet _ _) fun value _ => not_raises_ok _

theorem classifyQuery_quiet (pair : Text × Text) : ¬ Raises (classifyQuery pair) := by
  unfold classifyQuery
  split
  · exact not_raises_invalidField _
  · exact not_raises_ok _

theorem cookiePair_quiet (unicode : Unicode) (item : Text) : ¬ Raises
    (cookiePair unicode item) := by
  refine not_raises_ite (fun _ => not_raises_ok _) fun _ => ?_
  simp only
  have known := strictPercentDecodeText_quiet (partition '=' item).2 false
  split
  · exact not_raises_invalidField _
  · case _ exception raised => exact absurd ⟨exception, raised⟩ known
  · exact not_raises_check fun _ => not_raises_ok _

theorem cookiePairs_quiet (unicode : Unicode) (request : HTTPRequest) :
    ¬ Raises (cookiePairs unicode request) := by
  refine not_raises_bind (not_raises_mapM fun field _ => ?_) fun pairs _ => not_raises_ok _
  refine not_raises_bind (headerValueAfterSeparator_quiet _ _) fun value _ => ?_
  refine not_raises_bind (not_raises_mapM fun item _ =>
    cookiePair_quiet unicode item) fun pairs _ => ?_
  exact not_raises_ok _

theorem classifyCookie_quiet (pair : Text × Text) : ¬ Raises (classifyCookie pair) := by
  refine not_raises_check fun _ => ?_
  split
  · exact not_raises_ok _
  · exact not_raises_check fun _ => not_raises_ok _

theorem scanRequest_quiet (readers : PayloadReaders) (request : HTTPRequest) :
    ¬ Raises (scanRequest readers request) := by
  refine not_raises_bind (scanOccurrences_quiet _ classifyHeader_quiet) fun headers _ => ?_
  refine not_raises_bind ?_ fun query _ => not_raises_bind ?_ fun cookies _ => not_raises_ok _
  · refine not_raises_bind (parseQueryPairs_quiet _) fun pairs _ => ?_
    exact scanOccurrences_quiet _ classifyQuery_quiet
  · refine not_raises_bind (cookiePairs_quiet _ _) fun pairs _ => ?_
    exact scanOccurrences_quiet _ classifyCookie_quiet

theorem select_quiet (scanned : ScannedRequest) (route : AdvancedRoute) :
    ¬ Raises (scanned.select route) := by
  unfold ScannedRequest.select
  split
  · exact not_raises_reject _
  · exact not_raises_ok _
  · exact not_raises_reject _

theorem checkMetadata_quiet (scanned : ScannedRequest) (selected : AdvancedCarrier) :
    ¬ Raises (scanned.checkMetadata selected) := by
  refine not_raises_check fun _ => ?_
  refine not_raises_check fun _ => ?_
  exact not_raises_check fun _ => not_raises_ok _

/-! ### Names of chunks with too many digits -/

def isOversized (name : Str) : Bool :=
  match chunkDigits name with
  | none => false
  | some digits =>
    !(1 < digits.length && digits.head? = some 48) && maxStrDigits < digits.length

/-- Names that are taken one after the other: fields that are told apart, and chunks
where these are allowed. -/
def Collectable (allowChunks : Bool) (names : List Str) : Prop :=
  (names.filterMap fieldNamed).Nodup ∧
    ∀ name ∈ names, fieldNamed name = none →
      allowChunks = true ∧ ∃ index, validateChunkName name = .ok (some index)

/-- A chunk name that is too long, with nothing before it that is rejected. -/
def OversizedIn (allowChunks : Bool) (names : List Str) : Prop :=
  ∃ before name after, names = before ++ name :: after ∧ Collectable allowChunks before ∧
    isOversized name = true

variable {name : Str}

theorem raises_validateChunkName : Raises (validateChunkName name) ↔ isOversized name = true := by
  unfold validateChunkName isOversized
  cases chunkDigits name with
  | none => simp [not_raises_ok]
  | some digits =>
    simp only
    by_cases zero : 1 < digits.length ∧ digits.head? = some 48
    · simp [zero, not_raises_invalidField]
    rw [if_neg zero]
    by_cases long : maxStrDigits < digits.length
    · simp only [if_pos long]
      constructor
      · intro _
        simpa [long, imp_iff_not_or] using zero
      · exact fun _ => raises_uncaught _
    · rw [if_neg long]
      constructor
      · intro raised
        split at raised
        · exact absurd raised (not_raises_invalidField _)
        · exact absurd raised (not_raises_ok _)
      · intro oversized
        simp [long] at oversized

theorem fieldNamed_of_oversized (oversized : isOversized name = true) : fieldNamed name = none := by
  cases named : fieldNamed name with
  | none => rfl
  | some field =>
    have code : field.code = name := by
      exact of_decide_eq_true (find?_some named :)
    rw [← code] at oversized
    cases field <;> exact absurd oversized (by decide)

variable {allowChunks : Bool} {collected : CollectedFields} {occurrence : FieldOccurrence}

theorem raises_collectField :
    Raises (collectField allowChunks collected occurrence) ↔
      isOversized occurrence.name = true := by
  unfold collectField
  cases named : fieldNamed occurrence.name with
  | some field =>
    constructor
    · intro raised
      simp only at raised
      split at raised
      · exact absurd raised (not_raises_invalidField _)
      · exact absurd raised (not_raises_ok _)
    · intro oversized
      rw [fieldNamed_of_oversized oversized] at named
      cases named
  | none =>
    rw [raises_bind, raises_validateChunkName]
    constructor
    · rintro (oversized | ⟨index, _, raised⟩)
      · exact oversized
      · cases index with
        | none => exact absurd raised (not_raises_invalidField _)
        | some index =>
          simp only at raised
          split at raised
          · exact absurd raised (not_raises_invalidField _)
          · exact absurd raised (not_raises_ok _)
    · exact .inl

variable {collected next : CollectedFields}

theorem collectField_values
    (taken : collectField allowChunks collected occurrence = .ok next) (field : FieldName) :
    next.values field =
      if fieldNamed occurrence.name = some field then some occurrence
      else collected.values field := by
  unfold collectField at taken
  cases named : fieldNamed occurrence.name with
  | some known =>
    simp only [named] at taken
    split at taken
    · cases taken
    · cases taken
      simp only [Option.some.injEq, eq_comm]
  | none =>
    simp only [named] at taken
    obtain ⟨index, _, taken⟩ := bind_eq_ok.mp taken
    cases index with
    | none => cases taken
    | some index =>
      simp only at taken
      split at taken
      · cases taken
      · cases taken
        rfl

theorem collectField_succeeds : (∃ next, collectField allowChunks collected occurrence = .ok next) ↔
      (∀ field, fieldNamed occurrence.name = some field → collected.values field = none) ∧
      (fieldNamed occurrence.name = none → allowChunks = true ∧
        ∃ index, validateChunkName occurrence.name = .ok (some index)) := by
  unfold collectField
  cases named : fieldNamed occurrence.name with
  | some field =>
    simp only [Option.some.injEq, forall_eq', reduceCtorEq, false_implies, and_true]
    cases known : collected.values field with
    | none => exact ⟨fun _ => rfl, fun _ => ⟨_, rfl⟩⟩
    | some first =>
      constructor
      · rintro ⟨next, taken⟩
        cases taken
      · exact fun absent => nomatch absent
  | none =>
    simp only [reduceCtorEq, false_implies, implies_true, true_and, forall_const]
    constructor
    · rintro ⟨next, taken⟩
      obtain ⟨index, isChunk, taken⟩ := bind_eq_ok.mp taken
      cases index with
      | none => cases taken
      | some index =>
        simp only at taken
        split at taken
        · cases taken
        · case _ allowed => exact ⟨by simpa using allowed, index, isChunk⟩
    · rintro ⟨allowed, index, isChunk⟩
      rw [bind_of_ok isChunk]
      simp only [allowed, Bool.true_eq_false, if_false]
      exact ⟨_, rfl⟩

variable {occurrences : List FieldOccurrence}

theorem collect_succeeds :
    (∃ next, occurrences.foldlM (collectField allowChunks) collected = .ok next) ↔
      (∀ field ∈ (occurrences.map FieldOccurrence.name).filterMap fieldNamed,
        collected.values field = none) ∧
      Collectable allowChunks (occurrences.map FieldOccurrence.name) := by
  induction occurrences generalizing collected with
  | nil => simp [Collectable, pure, Except.pure]
  | cons occurrence rest ih =>
    have stepwise : (∃ next, (occurrence :: rest).foldlM (collectField allowChunks) collected =
        .ok next) ↔ ∃ middle, collectField allowChunks collected occurrence = .ok middle ∧
          ∃ next, rest.foldlM (collectField allowChunks) middle = .ok next := by
      simp only [foldlM_cons, bind_eq_ok]
      constructor
      · rintro ⟨next, middle, first, others⟩
        exact ⟨middle, first, next, others⟩
      · rintro ⟨middle, first, next, others⟩
        exact ⟨next, middle, first, others⟩
    rw [stepwise]
    simp only [ih]
    unfold Collectable
    rw [map_cons, forall_mem_cons]
    cases named : fieldNamed occurrence.name with
    | some field =>
      rw [filterMap_cons_some named, nodup_cons, forall_mem_cons]
      constructor
      · rintro ⟨middle, taken, unset, distinct, known⟩
        have first := (collectField_succeeds.mp ⟨middle, taken⟩).1 field named
        have fresh : ∀ other ∈ (rest.map name).filterMap fieldNamed,
            field ≠ other ∧ collected.values other = none := by
          intro other member
          have absent := unset other member
          rw [collectField_values taken, named] at absent
          split at absent
          · cases absent
          · case _ differs => exact ⟨fun same => differs (congrArg some same), absent⟩
        refine ⟨⟨first, fun other member => (fresh other member).2⟩, ⟨?_, distinct⟩, ?_, known⟩
        · exact fun member => (fresh field member).1 rfl
        · exact fun isNone => nomatch isNone
      · rintro ⟨⟨first, unset⟩, ⟨fresh, distinct⟩, _, known⟩
        obtain ⟨middle, taken⟩ : ∃ middle,
            collectField allowChunks collected occurrence = .ok middle := by
          refine collectField_succeeds.mpr ⟨fun other same => ?_, fun isNone => ?_⟩
          · rw [named] at same
            cases same
            exact first
          · rw [named] at isNone
            cases isNone
        refine ⟨middle, taken, fun other member => ?_, distinct, known⟩
        have differs : ¬ some field = some other := by
          rintro ⟨⟩
          exact fresh member
        rw [collectField_values taken, named, if_neg differs]
        exact unset other member
    | none =>
      rw [filterMap_cons_none named]
      constructor
      · rintro ⟨middle, taken, unset, distinct, known⟩
        have chunk := (collectField_succeeds.mp ⟨middle, taken⟩).2 named
        refine ⟨fun other member => ?_, distinct, fun _ => chunk, known⟩
        have absent := unset other member
        rw [collectField_values taken, named] at absent
        exact absent
      · rintro ⟨unset, distinct, chunk, known⟩
        obtain ⟨middle, taken⟩ : ∃ middle,
            collectField allowChunks collected occurrence = .ok middle := by
          refine collectField_succeeds.mpr ⟨fun other same => ?_, fun _ => chunk rfl⟩
          rw [named] at same
          cases same
        refine ⟨middle, taken, fun other member => ?_, distinct, known⟩
        rw [collectField_values taken, named]
        exact unset other member

theorem raises_foldlM {α β : Type} {step : β → α → Parsed β} {items : List α} {start : β} :
    Raises (items.foldlM step start) ↔
      ∃ before item after value, items = before ++ item :: after ∧
        before.foldlM step start = .ok value ∧ Raises (step value item) := by
  induction items generalizing start with
  | nil =>
    constructor
    · exact fun raised => absurd raised (not_raises_ok _)
    · rintro ⟨before, item, after, value, isNil, _⟩
      simp at isNil
  | cons head rest ih =>
    rw [foldlM_cons, raises_bind]
    constructor
    · rintro (raised | ⟨middle, first, raised⟩)
      · exact ⟨[], head, rest, start, rfl, rfl, raised⟩
      obtain ⟨before, item, after, value, rfl, taken, raised⟩ := ih.mp raised
      refine ⟨head :: before, item, after, value, rfl, ?_, raised⟩
      rw [foldlM_cons, bind_of_ok first, taken]
    · rintro ⟨before, item, after, value, split, taken, raised⟩
      cases before with
      | nil =>
        cases split
        cases taken
        exact .inl raised
      | cons first before =>
        cases split
        obtain ⟨middle, isMiddle, taken⟩ := bind_eq_ok.mp taken
        exact .inr ⟨middle, isMiddle, ih.mpr ⟨before, item, after, value, rfl, taken, raised⟩⟩

theorem raises_collect :
    Raises (occurrences.foldlM (collectField allowChunks) .empty) ↔
      OversizedIn allowChunks (occurrences.map FieldOccurrence.name) := by
  have collectable : ∀ before : List FieldOccurrence,
      (∃ value, before.foldlM (collectField allowChunks) .empty = .ok value) ↔
        Collectable allowChunks (before.map FieldOccurrence.name) := by
    intro before
    rw [collect_succeeds]
    exact and_iff_right fun field _ => rfl
  rw [raises_foldlM]
  constructor
  · rintro ⟨before, occurrence, after, value, rfl, taken, raised⟩
    refine ⟨before.map FieldOccurrence.name, occurrence.name, after.map name, ?_,
      (collectable before).mp ⟨value, taken⟩, raises_collectField.mp raised⟩
    rw [map_append, map_cons]
  · rintro ⟨names, name, others, split, isCollectable, oversized⟩
    obtain ⟨before, later, rfl, rfl, isLater⟩ := map_eq_append_iff.mp split
    obtain ⟨occurrence, after, rfl, rfl, _⟩ := map_eq_cons_iff.mp isLater
    obtain ⟨value, taken⟩ := (collectable before).mpr isCollectable
    exact ⟨before, occurrence, after, value, rfl, taken, raises_collectField.mpr oversized⟩

/-! ### The payload of collected fields -/

theorem fieldAsString_quiet (occurrence : FieldOccurrence) : ¬ Raises
    (fieldAsString occurrence) := by
  unfold fieldAsString
  split
  · exact not_raises_ok _
  · exact not_raises_invalidField _

theorem fieldAsBool_quiet (occurrence : FieldOccurrence) (jsonTypes : Bool) :
    ¬ Raises (fieldAsBool occurrence jsonTypes) := by
  unfold fieldAsBool
  split
  · exact not_raises_ite (fun _ => not_raises_ok _) fun _ => not_raises_invalidField _
  · refine not_raises_check fun _ => ?_
    refine not_raises_ite (fun _ => not_raises_ok _) fun _ => ?_
    exact not_raises_ite (fun _ => not_raises_ok _) fun _ => not_raises_invalidField _
  · exact not_raises_invalidField _

theorem optionalField_quiet (collected : CollectedFields) (field : FieldName) :
    ¬ Raises (optionalField collected field) := by
  unfold optionalField
  split
  · exact not_raises_ok _
  · exact not_raises_map _ (fieldAsString_quiet _)

theorem checkChunks_quiet (expected : Nat) (chunks : List (Nat × FieldOccurrence)) :
    ¬ Raises (checkChunks expected chunks) := by
  induction chunks generalizing expected with
  | nil => exact not_raises_ok ()
  | cons chunk rest ih =>
    refine not_raises_check fun _ => ?_
    exact not_raises_bind (fieldAsString_quiet _) fun _ _ => ih _

theorem encodedDataOf_quiet (source : PayloadSource) (collected : CollectedFields)
    (chunks : List (Nat × FieldOccurrence)) : ¬ Raises (encodedDataOf source collected chunks) := by
  unfold encodedDataOf
  split
  · exact not_raises_ok _
  split
  · exact not_raises_map _ (fieldAsString_quiet _)
  · refine not_raises_ite (fun _ => not_raises_ok _) fun _ => ?_
    exact not_raises_map _ (not_raises_mapM fun chunk _ => fieldAsString_quiet _)

theorem checkData_quiet (source : PayloadSource) (encodedData : Option Str) :
    ¬ Raises (checkData source encodedData) := by
  unfold checkData
  split
  · exact not_raises_reject _
  · exact not_raises_invalidField _
  · exact not_raises_check fun _ => not_raises_ok _
  · exact not_raises_ite (fun _ => not_raises_reject _) fun _ => not_raises_ok _

theorem encodingOf_quiet (source : PayloadSource) (collected : CollectedFields) :
    ¬ Raises (encodingOf source collected) := by
  unfold encodingOf
  split
  · exact not_raises_invalidField _
  · exact not_raises_ok _
  · split
    · exact not_raises_ok _
    split
    · exact not_raises_reject _
    refine not_raises_bind (fieldAsString_quiet _) fun text _ => ?_
    split
    · exact not_raises_invalidField _
    · exact not_raises_ok _

theorem encryptionOf_quiet (collected : CollectedFields) : ¬ Raises (encryptionOf collected) := by
  unfold encryptionOf
  split
  · exact not_raises_reject _
  refine not_raises_bind (fieldAsString_quiet _) fun text _ => ?_
  split
  · exact not_raises_invalidField _
  · exact not_raises_ok _

theorem keyIsBase64Of_quiet (collected : CollectedFields) (jsonTypes : Bool) (key : Option Str) :
    ¬ Raises (keyIsBase64Of collected jsonTypes key) := by
  unfold keyIsBase64Of
  split
  · exact not_raises_ok _
  · refine not_raises_bind (fieldAsBool_quiet _ _) fun isBase64 _ => ?_
    exact not_raises_check fun _ => not_raises_ok _

theorem decodeKey_quiet (key : Option Str) (isBase64 : Bool) : ¬ Raises
    (decodeKey key isBase64) := by
  unfold decodeKey
  split
  · split
    · exact not_raises_invalidField _
    · exact not_raises_invalidField _
    · split
      · exact not_raises_invalidField _
      · exact not_raises_invalidField _
      · exact not_raises_ok _
  · exact not_raises_ok _

theorem checkEncryption_quiet (encryption : AdvancedEncryption) (key : Option Str)
    (isBase64 : Bool) (hmac : Option Str) :
    ¬ Raises (checkEncryption encryption key isBase64 hmac) := by
  refine not_raises_ite (fun _ => ?_) fun _ => ?_
  · refine not_raises_check fun _ => ?_
    refine not_raises_check fun _ => ?_
    exact not_raises_check fun _ => not_raises_ok _
  · exact not_raises_ite (fun _ => not_raises_reject _) fun _ => not_raises_ok _

theorem settleFields_quiet (source : PayloadSource) (collected : CollectedFields) :
    ¬ Raises (settleFields source collected) := by
  refine not_raises_check fun _ => ?_
  refine not_raises_bind (checkChunks_quiet _ _) fun _ _ => ?_
  refine not_raises_bind (encodedDataOf_quiet _ _ _) fun encodedData _ => ?_
  refine not_raises_bind (checkData_quiet _ _) fun _ _ => ?_
  refine not_raises_bind (encodingOf_quiet _ _) fun encoding _ => ?_
  refine not_raises_bind (encryptionOf_quiet _) fun encryption _ => ?_
  refine not_raises_bind ?_ fun encodedKey _ => ?_
  · refine not_raises_bind (optionalField_quiet _ _) fun key _ => ?_
    exact not_raises_check fun _ => not_raises_ok _
  refine not_raises_bind (keyIsBase64Of_quiet _ _ _) fun isBase64 _ => ?_
  refine not_raises_bind (decodeKey_quiet _ _) fun key _ => ?_
  refine not_raises_bind ?_ fun hmac _ => ?_
  · refine not_raises_bind (optionalField_quiet _ _) fun hmac _ => ?_
    split
    · exact not_raises_ok _
    · exact not_raises_ite (fun _ => not_raises_ok _) fun _ => not_raises_invalidField _
  refine not_raises_bind (checkEncryption_quiet _ _ _ _) fun _ _ => ?_
  refine not_raises_bind ?_ fun methodOverride _ => not_raises_ok _
  refine not_raises_bind (optionalField_quiet _ _) fun method _ => ?_
  split
  · exact not_raises_ok _
  · exact not_raises_check fun _ => not_raises_ok _

theorem declaredName_quiet (source : PayloadSource) (collected : CollectedFields) :
    ¬ Raises (declaredName source collected) := by
  unfold declaredName
  split
  · refine not_raises_check fun _ => ?_
    refine not_raises_bind (optionalField_quiet _ _) fun scalar _ => ?_
    exact not_raises_check fun _ => not_raises_ok _
  refine not_raises_bind (optionalField_quiet _ _) fun name _ => ?_
  split <;> exact not_raises_ok _

theorem raises_checkName {name : Option Str} :
    Raises (checkName name) ↔ ∃ text, name = some text ∧ ¬ Encodable text := by
  unfold checkName
  split
  · simp [not_raises_ok]
  · simp [not_raises_invalidField, Encodable]
  rename_i text notEmpty
  cases encoded : encode text with
  | none =>
    have lone : ¬ Encodable text := by
      intro encodable
      obtain ⟨bytes, isBytes⟩ := encode_of_encodable encodable
      rw [isBytes] at encoded
      cases encoded
    exact ⟨fun _ => ⟨text, rfl, lone⟩, fun _ => raises_uncaught _⟩
  | some bytes =>
    have encodable : Encodable text := encode_isSome.mp (Option.isSome_of_eq_some encoded)
    constructor
    · intro raised
      simp only at raised
      split at raised
      · exact absurd raised (not_raises_invalidField _)
      · exact absurd raised (not_raises_ok _)
    · rintro ⟨_, ⟨⟩, lone⟩
      exact absurd encodable lone

/-- Fields that are acceptable but for their name, which has a lone surrogate. -/
def LoneSurrogateInName (source : PayloadSource) (occurrences : List FieldOccurrence) : Prop :=
  ∃ collected settled name,
    occurrences.foldlM (collectField source.allowChunks) .empty = .ok collected ∧
    settleFields source collected = .ok settled ∧
    declaredName source collected = .ok (some name) ∧ ¬ Encodable name

variable {source : PayloadSource}

theorem raises_buildPayload :
    Raises (buildPayload source occurrences) ↔
      OversizedIn source.allowChunks (occurrences.map FieldOccurrence.name) ∨
      LoneSurrogateInName source occurrences := by
  unfold buildPayload namePayload LoneSurrogateInName
  rw [raises_bind, raises_collect]
  simp only [raises_bind, settleFields_quiet, declaredName_quiet, raises_checkName,
    not_raises_ok, false_or, and_false, exists_false, or_false]
  constructor
  · rintro (oversized | ⟨collected, taken, settled, isSettled, _, declared, name, rfl, lone⟩)
    · exact .inl oversized
    · exact .inr ⟨collected, settled, name, taken, isSettled, declared, lone⟩
  · rintro (oversized | ⟨collected, settled, name, taken, isSettled, declared, lone⟩)
    · exact .inl oversized
    · exact .inr ⟨collected, taken, settled, isSettled, _, declared, name, rfl, lone⟩

/-! ### Fields without lone surrogates -/

def EncodableValue (occurrence : FieldOccurrence) : Prop :=
  ∀ text, occurrence.value = .string text → Encodable text

def EncodableFields (occurrences : List FieldOccurrence) : Prop :=
  ∀ occurrence ∈ occurrences, EncodableValue occurrence

structure EncodableSource (source : PayloadSource) : Prop where
  encoded : ∀ text, source.encodedOverride = some text → Encodable text
  filename : ∀ text, source.partFilename = some text → Encodable text
  name : ∀ text, source.nameOverride = some text → Encodable text

structure EncodableCollected (collected : CollectedFields) : Prop where
  values : ∀ field occurrence, collected.values field = some occurrence → EncodableValue occurrence
  chunks : ∀ chunk ∈ collected.chunks, EncodableValue chunk.2

theorem collectField_encodable (encodable : EncodableCollected collected)
    (isEncodable : EncodableValue occurrence)
    (taken : collectField allowChunks collected occurrence = .ok next) :
    EncodableCollected next := by
  constructor
  · intro field other isOther
    rw [collectField_values taken] at isOther
    split at isOther
    · cases isOther
      exact isEncodable
    · exact encodable.values field other isOther
  · intro chunk member
    unfold collectField at taken
    split at taken
    · split at taken
      · cases taken
      · cases taken
        exact encodable.chunks chunk member
    · obtain ⟨index, _, taken⟩ := bind_eq_ok.mp taken
      cases index with
      | none => cases taken
      | some index =>
        simp only at taken
        split at taken
        · cases taken
        · cases taken
          rcases mem_append.mp member with earlier | last
          · exact encodable.chunks chunk earlier
          · cases mem_singleton.mp last
            exact isEncodable

theorem collect_encodable (encodable : EncodableCollected collected)
    (areEncodable : EncodableFields occurrences)
    (taken : occurrences.foldlM (collectField allowChunks) collected = .ok next) :
    EncodableCollected next := by
  induction occurrences generalizing collected with
  | nil =>
    cases taken
    exact encodable
  | cons occurrence rest ih =>
    obtain ⟨middle, first, others⟩ := bind_eq_ok.mp taken
    obtain ⟨head, tail⟩ := forall_mem_cons.mp areEncodable
    exact ih (collectField_encodable encodable head first) tail others

theorem encodableCollected_empty : EncodableCollected .empty :=
  ⟨fun _ _ absent => (nomatch absent), fun _ member => absurd member not_mem_nil⟩

theorem fieldAsString_encodable
    (encodable : EncodableValue occurrence) : Ensures (fieldAsString occurrence) Encodable := by
  unfold fieldAsString
  split
  · case _ text isText => exact .ok (encodable text isText)
  · exact .error _

theorem optionalField_encodable (encodable : EncodableCollected collected) (field : FieldName) :
    Ensures (optionalField collected field) fun value => ∀ text, value = some text →
      Encodable text := by
  unfold optionalField
  split
  · refine .ok fun text absent => ?_
    cases absent
  rename_i occurrence isOccurrence
  intro value mapped
  obtain ⟨text, isText, rfl⟩ := exists_of_map_eq_ok mapped
  rintro _ ⟨⟩
  exact fieldAsString_encodable (encodable.values field occurrence isOccurrence) text isText

theorem declaredName_encodable
    (isSource : EncodableSource source) (encodable : EncodableCollected collected) :
    Ensures (declaredName source collected) fun value =>
      ∀ text, value = some text → Encodable text := by
  unfold declaredName
  split
  · case _ filename isFilename =>
      refine .ite (fun _ => .error _) fun _ => .andThen fun scalar => ?_
      refine .ite (fun _ => .error _) fun _ => .ok ?_
      rintro _ ⟨⟩
      exact isSource.filename filename isFilename
  · refine .bind (optionalField_encodable encodable .name) fun value known => ?_
    split
    · exact .ok isSource.name
    · exact .ok known

theorem not_loneSurrogateInName
    (isSource : EncodableSource source) (encodable : EncodableFields occurrences) :
    ¬ LoneSurrogateInName source occurrences := by
  rintro ⟨collected, settled, name, taken, _, declared, lone⟩
  have isCollected := collect_encodable encodableCollected_empty encodable taken
  exact lone (declaredName_encodable isSource isCollected _ declared name rfl)

theorem encodable_flatten {parts : List Str} (encodable : ∀ part ∈ parts, Encodable part) :
    Encodable parts.flatten := by
  intro code member
  obtain ⟨part, isPart, isCode⟩ := mem_flatten.mp member
  exact encodable part isPart code isCode

theorem mapM_encodable {chunks : List (Nat × FieldOccurrence)} {parts : List Str}
    (encodable : ∀ chunk ∈ chunks, EncodableValue chunk.2)
    (taken : (chunks.mapM fun chunk => fieldAsString chunk.2) = .ok parts) :
    ∀ part ∈ parts, Encodable part := by
  induction chunks generalizing parts with
  | nil =>
    cases taken
    exact fun part member => absurd member not_mem_nil
  | cons chunk rest ih =>
    rw [mapM_cons] at taken
    obtain ⟨first, isFirst, taken⟩ := bind_eq_ok.mp taken
    obtain ⟨others, isRest, taken⟩ := bind_eq_ok.mp taken
    cases taken
    obtain ⟨head, tail⟩ := forall_mem_cons.mp encodable
    exact forall_mem_cons.mpr ⟨fieldAsString_encodable head first isFirst, ih tail isRest⟩

theorem encodedDataOf_encodable
    (isSource : EncodableSource source) (encodable : EncodableCollected collected) :
    Ensures (encodedDataOf source collected (sortedChunks collected.chunks)) fun value =>
      ∀ text, value = some text → Encodable text := by
  unfold encodedDataOf
  split
  · case _ override isOverride =>
      refine .ok ?_
      rintro _ ⟨⟩
      exact isSource.encoded override isOverride
  · split
    · case _ occurrence isOccurrence =>
        intro value mapped
        obtain ⟨text, isText, rfl⟩ := exists_of_map_eq_ok mapped
        rintro _ ⟨⟩
        exact fieldAsString_encodable (encodable.values .data occurrence isOccurrence) text isText
    · refine .ite (fun _ => .ok fun text absent => (nomatch absent)) fun _ => ?_
      intro value mapped
      obtain ⟨parts, isParts, rfl⟩ := exists_of_map_eq_ok mapped
      rintro _ ⟨⟩
      refine encodable_flatten (mapM_encodable (fun chunk member => ?_) isParts)
      exact encodable.chunks chunk (mem_mergeSort.mp member)

theorem settleFields_ok
    {settled : NamelessPayload} (isSettled : settleFields source collected = .ok settled) :
    encodedDataOf source collected (sortedChunks collected.chunks) = .ok settled.encodedData ∧
    checkData source settled.encodedData = .ok () ∧
    encodingOf source collected = .ok settled.encoding := by
  unfold settleFields at isSettled
  split at isSettled
  · cases isSettled
  obtain ⟨_, _, isSettled⟩ := bind_eq_ok.mp isSettled
  obtain ⟨encodedData, isEncoded, isSettled⟩ := bind_eq_ok.mp isSettled
  obtain ⟨_, checked, isSettled⟩ := bind_eq_ok.mp isSettled
  obtain ⟨encoding, isEncoding, isSettled⟩ := bind_eq_ok.mp isSettled
  -- the encryption, the key with its checks, and the method override
  iterate 7 obtain ⟨_, _, isSettled⟩ := bind_eq_ok.mp isSettled
  cases isSettled
  exact ⟨isEncoded, checked, isEncoding⟩

variable {payload : CanonicalAdvancedPayload}

theorem buildPayload_ok (built : buildPayload source occurrences = .ok payload) :
    ∃ collected settled,
      occurrences.foldlM (collectField source.allowChunks) .empty = .ok collected ∧
      settleFields source collected = .ok settled ∧ payload.rawData = source.rawData ∧
      payload.encodedData = settled.encodedData ∧ payload.encoding = settled.encoding := by
  obtain ⟨collected, taken, built⟩ := bind_eq_ok.mp built
  obtain ⟨settled, isSettled, built⟩ := bind_eq_ok.mp built
  obtain ⟨name, _, built⟩ := bind_eq_ok.mp built
  obtain ⟨_, _, built⟩ := bind_eq_ok.mp built
  cases built
  exact ⟨collected, settled, taken, isSettled, rfl, rfl, rfl⟩

theorem buildPayload_encodable (isSource : EncodableSource source)
    (encodable : EncodableFields occurrences)
    (built : buildPayload source occurrences = .ok payload) :
    ∀ text, payload.encodedData = some text → Encodable text := by
  obtain ⟨collected, settled, taken, isSettled, _, sameData, _⟩ := buildPayload_ok built
  have isCollected := collect_encodable encodableCollected_empty encodable taken
  rw [sameData]
  exact encodedDataOf_encodable isSource isCollected _ (settleFields_ok isSettled).1

/-- A payload that can be decoded: raw data, or encoded data and how they are encoded. -/
def Complete (payload : CanonicalAdvancedPayload) : Prop :=
  payload.rawData = none → payload.encodedData.isSome = true ∧ payload.encoding.isSome = true

theorem encodingOf_isSome (encoded : source.rawData = none) :
    Ensures (encodingOf source collected) fun encoding => encoding.isSome = true := by
  unfold encodingOf
  rw [encoded]
  simp only
  split
  · exact .ok rfl
  split
  · exact .error _
  refine .andThen fun text => ?_
  split
  · exact .error _
  · exact .ok rfl

theorem buildPayload_complete : Ensures (buildPayload source occurrences) Complete := by
  intro payload built encoded
  obtain ⟨collected, settled, taken, isSettled, sameRaw, sameData, sameEncoding⟩ :=
    buildPayload_ok built
  obtain ⟨_, checked, isEncoding⟩ := settleFields_ok isSettled
  rw [sameRaw] at encoded
  rw [sameData, sameEncoding]
  refine ⟨?_, encodingOf_isSome encoded _ isEncoding⟩
  unfold checkData at checked
  rw [encoded] at checked
  cases isData : settled.encodedData with
  | none =>
    rw [isData] at checked
    cases checked
  | some text => rfl

/-! ### What scans find can be encoded -/

theorem scanOccurrences_encodable {α : Type} {classify : α → Classified} {items : List α}
    (scanned : scanOccurrences classify items = .ok occurrences)
    (known : ∀ item content, contentOf classify item = some content →
      ∃ text, content.2 = .string (str text)) : EncodableFields occurrences := by
  intro occurrence member text isText
  have plain : occurrence.plain ∈ occurrences.map plain := mem_map_of_mem member
  rw [(scanOccurrences_scanned scanned).contents] at plain
  obtain ⟨content, isContent, same⟩ := mem_map.mp plain
  obtain ⟨item, _, found⟩ := mem_filterMap.mp isContent
  obtain ⟨value, isValue⟩ := known item content found
  have sameValue : content.2 = occurrence.value := congrArg FieldOccurrence.value same
  rw [← sameValue, isValue] at isText
  cases isText
  exact encodable_str value

theorem classified_of_contentOf {α : Type} {classify : α → Classified} {item : α}
    {content : Str × Value} (found : contentOf classify item = some content) :
    ∃ classified, classify item = .ok classified := by
  unfold contentOf at found
  split at found
  · case _ isClassified => exact ⟨_, isClassified⟩
  · cases found

variable {request : HTTPRequest}

theorem headerScan_encodable
    (scanned : headerScan request = .ok occurrences) : EncodableFields occurrences := by
  refine scanOccurrences_encodable scanned fun field content found => ?_
  obtain ⟨classified, isClassified⟩ := classified_of_contentOf found
  rw [contentOf_classifyHeader isClassified, Option.map_map] at found
  obtain ⟨name, _, rfl⟩ := Option.map_eq_some_iff.mp found
  exact ⟨field.value, rfl⟩

theorem queryScan_encodable
    (scanned : queryScan request = .ok occurrences) : EncodableFields occurrences := by
  obtain ⟨pairs, _, scanned⟩ := bind_eq_ok.mp scanned
  refine scanOccurrences_encodable scanned fun pair content found => ?_
  obtain ⟨classified, isClassified⟩ := classified_of_contentOf found
  rw [contentOf_classifyQuery isClassified] at found
  cases found
  exact ⟨pair.2, rfl⟩

theorem cookieScan_encodable {unicode : Unicode}
    (scanned : cookieScan unicode request = .ok occurrences) :
    EncodableFields occurrences := by
  obtain ⟨pairs, _, scanned⟩ := bind_eq_ok.mp scanned
  refine scanOccurrences_encodable scanned fun pair content found => ?_
  obtain ⟨classified, isClassified⟩ := classified_of_contentOf found
  rw [contentOf_classifyCookie isClassified, Option.map_map] at found
  obtain ⟨field, _, rfl⟩ := Option.map_eq_some_iff.mp found
  exact ⟨pair.2, rfl⟩

structure ScannedRequest.Encodable (scanned : ScannedRequest) : Prop where
  headers : EncodableFields scanned.headers
  query : EncodableFields scanned.query
  cookies : EncodableFields scanned.cookies

variable {readers : PayloadReaders}

theorem scanRequest_encodable : Ensures (scanRequest readers request) ScannedRequest.Encodable := by
  intro scanned isScan
  obtain ⟨headers, isHeaders, isScan⟩ := bind_eq_ok.mp isScan
  obtain ⟨query, isQuery, isScan⟩ := bind_eq_ok.mp isScan
  obtain ⟨cookies, isCookies, isScan⟩ := bind_eq_ok.mp isScan
  cases isScan
  constructor
  · exact headerScan_encodable isHeaders
  · exact queryScan_encodable isQuery
  · exact cookieScan_encodable isCookies

/-! ### The ways to raise -/

def JsonDefect (levels : Nat) (body : Bytes) : Prop :=
  ∃ text, decode body = some text ∧
    (loads levels text = .error .tooManyDigits ∨ loads levels text = .error .tooDeep ∨
      ∃ members, loads levels text = .ok (.object members) ∧
        (OversizedIn true (members.map Prod.fst) ∨
          LoneSurrogateInName jsonSource (memberOccurrences members)))

def FormDefect (body : Bytes) : Prop :=
  ∃ raw pairs, decode body = some raw ∧ parseFormPairs raw = .ok pairs ∧
    OversizedIn true (pairs.map fun pair => str pair.1)

def MultipartDefect (readers : PayloadReaders) (declared : List Text) (body : Bytes) : Prop :=
  parseMultipartFormData readers.headers (declared.headD []) body = .error .raised ∨
  ∃ parts, parseMultipartFormData readers.headers (declared.headD []) body = .ok parts ∧
    (∀ part ∈ parts, part.filename = none ∧ (decode part.payload).isSome = true) ∧
    OversizedIn true (parts.map fun part => str part.fieldName)

def BodyDefect (readers : PayloadReaders) (route : AdvancedRoute) (scanned : ScannedRequest) :
    Prop :=
  let declared := scanned.request.headerValues "content-type"
  let body := scanned.request.body
  hasMetadata scanned.headers = false ∧ ∃ profile contentType,
    bodyProfile readers.unicode route.decoder declared = .ok (profile, contentType) ∧
    (profile = .json ∧ JsonDefect readers.levels body ∨ profile = .form ∧ FormDefect body ∨
      profile = .multipartEncoded ∧ MultipartDefect readers declared body)

def CarrierDefect (readers : PayloadReaders) (route : AdvancedRoute) (scanned : ScannedRequest) :
    AdvancedCarrier → Prop
  | .headers => OversizedIn true (scanned.headers.map FieldOccurrence.name)
  | .query => OversizedIn true (scanned.query.map FieldOccurrence.name)
  | .cookies | .path => False
  | .body => BodyDefect readers route scanned

/-- A request that passes the scans and the choice of its carrier, and has a defect there. -/
def ReachesDefect (readers : PayloadReaders) (route : AdvancedRoute)
  (request : HTTPRequest) : Prop :=
  ∃ scanned selected, scanRequest readers request = .ok scanned ∧
    scanned.select route = .ok selected ∧ scanned.checkMetadata selected = .ok () ∧
    CarrierDefect readers route scanned selected

def UsesXml (readers : PayloadReaders) (route : AdvancedRoute) (request : HTTPRequest) : Prop :=
  request.body ≠ [] ∧ ∃ contentType,
    bodyProfile readers.unicode route.decoder (request.headerValues "content-type") =
      .ok (.xml, contentType)

/-! ### Each carrier raises by its defect only -/

theorem memberOccurrences_names (members : List (Str × Value)) :
    (memberOccurrences members).map FieldOccurrence.name = members.map Prod.fst := by
  unfold memberOccurrences
  rw [map_map]
  have names : (name ∘ fun x : (Str × Value) × Nat =>
      ({ name := x.1.1, value := x.1.2, wireOrder := x.2, displayName := x.1.1 } :
        FieldOccurrence)) = Prod.fst ∘ Prod.fst := rfl
  rw [names, ← map_map, zipIdx_map_fst]

variable {members : List (Str × Value)}

theorem memberOccurrences_encodable
    (known : ∀ member ∈ members, ∃ text, member.2 = .string (str text)) :
    EncodableFields (memberOccurrences members) := by
  intro occurrence member text isText
  obtain ⟨⟨⟨name, value⟩, position⟩, isMember, rfl⟩ := mem_map.mp member
  have listed := mem_zipIdx' isMember
  obtain ⟨found, same⟩ := known (name, value) (listed.2 ▸ getElem_mem _)
  cases same.symm.trans isText
  exact encodable_str found

theorem encodable_plainSource (noOverride : source.encodedOverride = none)
    (noFilename : source.partFilename = none) (noName : source.nameOverride = none) :
    EncodableSource source := by
  constructor
  · intro text isText
    exact absurd (noOverride.symm.trans isText) (by simp)
  · intro text isText
    exact absurd (noFilename.symm.trans isText) (by simp)
  · intro text isText
    exact absurd (noName.symm.trans isText) (by simp)

theorem raises_buildEncodable
    (isSource : EncodableSource source) (encodable : EncodableFields occurrences) :
    Raises (buildPayload source occurrences) ↔
      OversizedIn source.allowChunks (occurrences.map FieldOccurrence.name) := by
  rw [raises_buildPayload, or_iff_left (not_loneSurrogateInName isSource encodable)]

theorem chunkDigits_of_oversized (oversized : isOversized name = true) :
    (chunkDigits name).isSome = true := by
  unfold isOversized at oversized
  split at oversized
  · cases oversized
  rename_i isChunk
  rw [isChunk]
  rfl

theorem not_oversizedIn {names : List Str}
    (known : ∀ name ∈ names, (chunkDigits name).isSome = false) :
    ¬ OversizedIn allowChunks names := by
  rintro ⟨before, name, after, rfl, _, oversized⟩
  have isChunk := chunkDigits_of_oversized oversized
  rw [known name (by simp)] at isChunk
  cases isChunk

theorem isPrefixOf_of_chunkDigits (isChunk : (chunkDigits name).isSome = true) :
    (literal "data_").isPrefixOf name = true := by
  unfold chunkDigits digitsAfter at isChunk
  simp only at isChunk
  split at isChunk
  · case _ found => exact found.1
  · cases isChunk

variable {body : Bytes} {profile : AdvancedBodyProfile}

theorem wholeBody_quiet {contentType : Text}
    {headers : List FieldOccurrence} (encodable : EncodableFields headers) :
    ¬ Raises
      (buildPayload (wholeBodySource profile contentType body) (metadataHeaders headers)) := by
  have isSource : EncodableSource (wholeBodySource profile contentType body) :=
    encodable_plainSource rfl rfl rfl
  have kept : EncodableFields (metadataHeaders headers) := fun occurrence member =>
    encodable occurrence (mem_filter.mp member).1
  rw [raises_buildEncodable isSource kept]
  refine not_oversizedIn fun name member => ?_
  obtain ⟨occurrence, isKept, rfl⟩ := mem_map.mp member
  have passes := (mem_filter.mp isKept).2
  rw [Bool.not_eq_true', Bool.or_eq_false_iff] at passes
  by_contra isChunk
  rw [Bool.not_eq_false] at isChunk
  rw [isPrefixOf_of_chunkDigits isChunk] at passes
  exact absurd passes.2 (by decide)

theorem raises_loadJson {levels : Nat} :
    Raises (loadJson levels body) ↔ ∃ text, decode body = some text ∧
      (loads levels text = .error .tooManyDigits ∨ loads levels text = .error .tooDeep) := by
  unfold loadJson
  cases decoded : decode body with
  | none => simp [malformedJson, not_raises_reject]
  | some text =>
    cases loaded : loads levels text with
    | ok value => simp [not_raises_ok, loaded]
    | error fault =>
      cases fault with
      | duplicateMember name => simp [not_raises_invalidField, loaded]
      | malformed => simp [malformedJson, not_raises_reject, loaded]
      | tooManyDigits | tooDeep => simp [raises_uncaught, loaded]

theorem loadJson_eq_ok {levels : Nat} {value : Value} :
    loadJson levels body = .ok value ↔
      ∃ text, decode body = some text ∧ loads levels text = .ok value := by
  unfold loadJson malformedJson invalidField reject
  cases decode body with
  | none => simp
  | some text =>
    cases loaded : loads levels text with
    | ok other => simp [loaded]
    | error fault => cases fault <;> simp [loaded]

theorem raises_jsonMembers :
    Raises (buildPayload jsonSource (memberOccurrences members)) ↔
      OversizedIn true (members.map Prod.fst) ∨
        LoneSurrogateInName jsonSource (memberOccurrences members) := by
  rw [raises_buildPayload, memberOccurrences_names]
  rfl

theorem raises_parseJsonBody :
    Raises (parseJsonBody readers body) ↔ JsonDefect readers.levels body := by
  unfold parseJsonBody JsonDefect
  rw [raises_bind, raises_loadJson]
  constructor
  · rintro (⟨text, decoded, fault⟩ | ⟨value, loaded, raised⟩)
    · exact ⟨text, decoded, fault.imp_right .inl⟩
    obtain ⟨text, decoded, loaded⟩ := loadJson_eq_ok.mp loaded
    cases value with
    | object members => exact ⟨text, decoded,
      .inr (.inr ⟨members, loaded, raises_jsonMembers.mp raised⟩)⟩
    | _ => exact absurd raised (not_raises_reject _)
  · rintro ⟨text, decoded, digits | deep | ⟨members, loaded, defect⟩⟩
    · exact .inl ⟨text, decoded, .inl digits⟩
    · exact .inl ⟨text, decoded, .inr deep⟩
    · exact .inr ⟨.object members, loadJson_eq_ok.mpr ⟨text, decoded, loaded⟩,
        raises_jsonMembers.mpr defect⟩

theorem raises_parseFormBody : Raises (parseFormBody body) ↔ FormDefect body := by
  unfold parseFormBody FormDefect
  cases decoded : decode body with
  | none => simp [not_raises_invalidField]
  | some raw =>
    have built : ∀ pairs, Raises (buildPayload formSource (textOccurrences pairs)) ↔
        OversizedIn true (pairs.map fun pair => str pair.1) := by
      intro pairs
      have encodable : EncodableFields (textOccurrences pairs) := by
        refine memberOccurrences_encodable fun member isMember => ?_
        obtain ⟨pair, _, rfl⟩ := mem_map.mp isMember
        exact ⟨pair.2, rfl⟩
      rw [raises_buildEncodable (encodable_plainSource rfl rfl rfl) encodable]
      unfold textOccurrences
      rw [memberOccurrences_names, map_map]
      rfl
    simp only [raises_bind, built, Option.some.injEq]
    have quiet : ¬ Raises (parseFormPairs raw) := parseQueryPairs_quiet raw
    constructor
    · rintro (raised | ⟨pairs, parsed, oversized⟩)
      · exact absurd raised quiet
      · exact ⟨raw, pairs, rfl, parsed, oversized⟩
    · rintro ⟨_, pairs, rfl, parsed, oversized⟩
      exact .inr ⟨pairs, parsed, oversized⟩

theorem scalarMember_ok {part : MultipartPart} {member : Str × Value} :
    scalarMember part = .ok member ↔
      ∃ text, decode part.payload = some text ∧ member =
        (str part.fieldName, .string (str text)) := by
  unfold scalarMember
  cases decode part.payload with
  | none => simp [invalidField, reject]
  | some text => simp [eq_comm]

theorem scalarMember_quiet (part : MultipartPart) : ¬ Raises (scalarMember part) := by
  unfold scalarMember
  split
  · exact not_raises_invalidField _
  · exact not_raises_ok _

variable {parts : List MultipartPart}

theorem scalarMembers_ok (taken : parts.mapM scalarMember = .ok members) :
    members.map Prod.fst = (parts.map fun part => str part.fieldName) ∧
    (∀ part ∈ parts, (decode part.payload).isSome = true) ∧
    ∀ member ∈ members, ∃ text, member.2 = .string (str text) := by
  induction parts generalizing members with
  | nil =>
    cases taken
    exact ⟨rfl, fun part member => absurd member not_mem_nil,
      fun member isMember => absurd isMember not_mem_nil⟩
  | cons part rest ih =>
    rw [mapM_cons] at taken
    obtain ⟨first, isFirst, taken⟩ := bind_eq_ok.mp taken
    obtain ⟨others, isRest, taken⟩ := bind_eq_ok.mp taken
    cases taken
    obtain ⟨text, decoded, rfl⟩ := scalarMember_ok.mp isFirst
    obtain ⟨names, allDecoded, texts⟩ := ih isRest
    refine ⟨?_, forall_mem_cons.mpr ⟨?_, allDecoded⟩, forall_mem_cons.mpr ⟨⟨text, rfl⟩, texts⟩⟩
    · rw [map_cons, map_cons, names]
    · rw [decoded]
      rfl

theorem scalarMembers_succeed (allDecoded : ∀ part ∈ parts, (decode part.payload).isSome = true) :
    ∃ members, parts.mapM scalarMember = .ok members := by
  induction parts with
  | nil => exact ⟨[], rfl⟩
  | cons part rest ih =>
    obtain ⟨first, others⟩ := forall_mem_cons.mp allDecoded
    obtain ⟨text, decoded⟩ := Option.isSome_iff_exists.mp first
    obtain ⟨members, taken⟩ := ih others
    have isFirst := scalarMember_ok.mpr ⟨text, decoded, rfl⟩
    refine ⟨(str part.fieldName, .string (str text)) :: members, ?_⟩
    rw [mapM_cons, bind_of_ok isFirst, bind_of_ok taken]
    rfl

theorem buildMultipart_files_quiet {file : MultipartPart} {others : List MultipartPart}
    (encodable : EncodableFields occurrences) :
    ¬ Raises (buildMultipart (file :: others) occurrences) := by
  cases others with
  | cons next rest => exact not_raises_invalidField _
  | nil =>
    refine not_raises_check fun noPayload => ?_
    refine not_raises_check fun _ => ?_
    refine not_raises_ite (fun _ => not_raises_reject _) fun _ => ?_
    have isSource : EncodableSource (multipartBinarySource file (file.filename.getD [])) := by
      refine ⟨fun text absent => (nomatch absent), ?_, fun text absent => (nomatch absent)⟩
      rintro _ ⟨⟩
      exact encodable_str _
    rw [raises_buildEncodable isSource encodable]
    refine not_oversizedIn fun name member => ?_
    obtain ⟨occurrence, isOccurrence, rfl⟩ := mem_map.mp member
    by_contra isChunk
    rw [Bool.not_eq_false] at isChunk
    refine noPayload (any_eq_true.mpr ⟨occurrence, isOccurrence, ?_⟩)
    exact Bool.or_eq_true_iff.mpr (.inr isChunk)

theorem raises_multipartEncoded (encodable : EncodableFields occurrences) :
    Raises (buildPayload multipartEncodedSource occurrences) ↔
      OversizedIn true (occurrences.map FieldOccurrence.name) :=
  raises_buildEncodable (encodable_plainSource rfl rfl rfl) encodable

theorem raises_parseMultipartBody {declared : List Text} :
    Raises (parseMultipartBody readers declared body) ↔ MultipartDefect readers declared body := by
  unfold parseMultipartBody MultipartDefect
  cases parsed : parseMultipartFormData readers.headers (declared.headD []) body with
  | error fault =>
    cases fault with
    | multipartError message => simp [not_raises_invalidField]
    | raised => simp [raises_uncaught]
  | ok parts =>
    simp only [reduceCtorEq, false_or, Except.ok.injEq, exists_eq_left']
    rw [raises_bind, or_iff_right (not_raises_mapM fun part _ => scalarMember_quiet part)]
    constructor
    · rintro ⟨members, taken, raised⟩
      obtain ⟨names, allDecoded, texts⟩ := scalarMembers_ok taken
      have encodable := memberOccurrences_encodable texts
      cases files : parts.filter fun part => part.filename.isSome with
      | cons file others =>
        rw [files] at raised
        exact absurd raised (buildMultipart_files_quiet encodable)
      | nil =>
        have noFiles : ∀ part ∈ parts, part.filename = none := by
          intro part member
          have absent := filter_eq_nil_iff.mp files part member
          rwa [Option.not_isSome_iff_eq_none] at absent
        have scalars : (parts.filter fun part => part.filename.isNone) = parts :=
          filter_eq_self.mpr fun part member => by rw [noFiles part member]; rfl
        rw [files] at raised
        rw [scalars] at names allDecoded
        have oversized := (raises_multipartEncoded encodable).mp raised
        rw [memberOccurrences_names, names] at oversized
        exact ⟨fun part member => ⟨noFiles part member, allDecoded part member⟩, oversized⟩
    · rintro ⟨known, oversized⟩
      have scalars : (parts.filter fun part => part.filename.isNone) = parts :=
        filter_eq_self.mpr fun part member => by rw [(known part member).1]; rfl
      have files : (parts.filter fun part => part.filename.isSome) = [] :=
        filter_eq_nil_iff.mpr fun part member => by rw [(known part member).1]; simp
      obtain ⟨members, taken⟩ := scalarMembers_succeed fun part member => (known part member).2
      obtain ⟨names, _, texts⟩ := scalarMembers_ok taken
      have encodable := memberOccurrences_encodable texts
      refine ⟨members, by rw [scalars]; exact taken, ?_⟩
      rw [files]
      refine (raises_multipartEncoded encodable).mpr ?_
      rw [memberOccurrences_names, names]
      exact oversized

/-! ### The choice of the profile and of the carrier -/

theorem contentTypeParams_quiet (unicode : Unicode) (value : Text) :
    ¬ Raises (contentTypeParams unicode value) := by
  refine not_raises_mapM fun item _ => ?_
  refine not_raises_ite (fun _ => not_raises_reject _) fun _ => ?_
  exact not_raises_ite (fun _ => not_raises_reject _) fun _ => not_raises_ok _

theorem autoProfile_quiet (base : Text) : ¬ Raises (autoProfile base) := by
  unfold autoProfile
  split
  · exact not_raises_ok _
  · exact not_raises_ite (fun _ => not_raises_ok _) fun _ => not_raises_reject _

theorem declaredProfile_quiet (decoder base : Text) : ¬ Raises (declaredProfile decoder base) := by
  refine not_raises_ite (fun _ => autoProfile_quiet base) fun _ => ?_
  refine not_raises_ite (fun _ => ?_) fun _ => ?_
  · exact not_raises_ite (fun _ => not_raises_ok _) fun _ => not_raises_reject _
  · split
    · exact not_raises_ite (fun _ => not_raises_ok _) fun _ => not_raises_reject _
    · exact not_raises_reject _

theorem bodyProfile_quiet (unicode : Unicode) (decoder : Text) (declared : List Text) :
    ¬ Raises (bodyProfile unicode decoder declared) := by
  unfold bodyProfile
  split
  · refine not_raises_bind (contentTypeParams_quiet _ _) fun params _ => ?_
    refine not_raises_ite (fun _ => not_raises_reject _) fun _ => ?_
    exact not_raises_bind (declaredProfile_quiet _ _) fun profile _ => not_raises_ok _
  · exact not_raises_reject _

def IsDeclared (profile : AdvancedBodyProfile) : Prop :=
  profile ∈ [AdvancedBodyProfile.json, .form, .multipartEncoded, .text, .raw, .xml]

theorem decoderProfiles_declared : ∀ entry ∈ decoderProfiles, IsDeclared entry.2.2 := by
  unfold IsDeclared
  decide

theorem autoProfile_declared (base : Text) : Ensures (autoProfile base) IsDeclared := by
  unfold autoProfile
  split
  · case _ entry found => exact .ok (decoderProfiles_declared entry (mem_of_find?_eq_some found))
  refine .ite (fun _ => .ok ?_) fun _ => .error _
  unfold IsDeclared
  decide

theorem bodyProfile_declared (unicode : Unicode) (decoder : Text) (declared : List Text) :
    Ensures (bodyProfile unicode decoder declared) fun found => IsDeclared found.1 := by
  unfold bodyProfile
  split
  · refine .andThen fun params => .ite (fun _ => .error _) fun _ => ?_
    have isDeclared : ∀ base, Ensures (declaredProfile decoder base) IsDeclared := by
      intro base
      refine .ite (fun _ => autoProfile_declared base) fun _ => .ite (fun _ => ?_) fun _ => ?_
      · refine .ite (fun _ => .ok ?_) fun _ => .error _
        unfold IsDeclared
        decide
      · split
        · case _ entry found =>
            refine .ite (fun _ => .ok ?_) fun _ => .error _
            exact decoderProfiles_declared entry (mem_of_find?_eq_some found)
        · exact .error _
    exact .bind (isDeclared _) fun profile known => .ok known
  · exact .error _

variable {scanned : ScannedRequest}

theorem parseWholeBody_quiet {contentType : Text} (encodable : EncodableFields scanned.headers) :
    ¬ Raises (if hasMetadata scanned.query = true then invalidField (literal "query")
      else if hasMetadata scanned.cookies = true then invalidField (literal "cookie")
      else if profile = .raw then parseRawBody contentType scanned.headers body
      else parseTextBody contentType scanned.headers body) := by
  refine not_raises_check fun _ => ?_
  refine not_raises_check fun _ => ?_
  refine not_raises_ite (fun _ => wholeBody_quiet encodable) fun _ => ?_
  unfold parseTextBody
  split
  · exact not_raises_invalidField _
  · exact wholeBody_quiet encodable

variable {route : AdvancedRoute}

theorem raises_parseBody (encodable : EncodableFields scanned.headers)
    (notXml : ∀ contentType, bodyProfile readers.unicode route.decoder
      (scanned.request.headerValues "content-type") ≠ .ok (.xml, contentType)) :
    Raises (parseBody readers route scanned) ↔ BodyDefect readers route scanned := by
  unfold parseBody BodyDefect
  rw [raises_bind, or_iff_right (bodyProfile_quiet _ _ _)]
  constructor
  · rintro ⟨⟨profile, contentType⟩, isProfile, raised⟩
    have declared := bodyProfile_declared _ _ _ _ isProfile
    by_cases whole : profile = .raw ∨ profile = .text
    · simp only [if_pos whole] at raised
      exact absurd raised (parseWholeBody_quiet encodable)
    simp only [if_neg whole] at raised
    by_cases isMetadata : hasMetadata scanned.headers = true
    · rw [if_pos isMetadata] at raised
      exact absurd raised (not_raises_invalidField _)
    rw [if_neg isMetadata] at raised
    refine ⟨Bool.eq_false_iff.mpr isMetadata, profile, contentType, isProfile, ?_⟩
    unfold IsDeclared at declared
    simp only [mem_cons, not_mem_nil, or_false] at declared
    rcases declared with rfl | rfl | rfl | rfl | rfl | rfl
    · exact .inl ⟨rfl, raises_parseJsonBody.mp raised⟩
    · exact .inr (.inl ⟨rfl, raises_parseFormBody.mp raised⟩)
    · exact .inr (.inr ⟨rfl, raises_parseMultipartBody.mp raised⟩)
    · exact absurd (.inr rfl) whole
    · exact absurd (.inl rfl) whole
    · exact absurd isProfile (notXml contentType)
  · rintro ⟨noMetadata, profile, contentType, isProfile, defect⟩
    refine ⟨(profile, contentType), isProfile, ?_⟩
    rcases defect with ⟨rfl, defect⟩ | ⟨rfl, defect⟩ | ⟨rfl, defect⟩
    · simp only [reduceCtorEq, or_self, if_false, noMetadata, Bool.false_eq_true]
      exact raises_parseJsonBody.mpr defect
    · simp only [reduceCtorEq, or_self, if_false, noMetadata, Bool.false_eq_true]
      exact raises_parseFormBody.mpr defect
    · simp only [reduceCtorEq, or_self, if_false, noMetadata, Bool.false_eq_true]
      exact raises_parseMultipartBody.mpr defect

theorem pathMetadata_noChunk {occurrences metadata : List FieldOccurrence}
    (taken : pathMetadata occurrences = .ok metadata) :
    ∀ occurrence ∈ occurrences, (chunkDigits occurrence.name).isSome = false := by
  unfold pathMetadata at taken
  induction occurrences generalizing metadata with
  | nil => exact fun occurrence member => absurd member not_mem_nil
  | cons occurrence rest ih =>
    rw [mapM_cons] at taken
    obtain ⟨first, isFirst, taken⟩ := bind_eq_ok.mp taken
    obtain ⟨others, isRest, taken⟩ := bind_eq_ok.mp taken
    refine forall_mem_cons.mpr ⟨?_, ih isRest⟩
    split at isFirst
    · cases isFirst
    · case _ plain => exact Bool.eq_false_iff.mpr fun isChunk => plain (.inr isChunk)

theorem path_quiet {routePrefix : Option Text} {rawPath : Text}
    (encodable : EncodableFields occurrences) :
    ¬ Raises (parseReservedPathCarrier routePrefix rawPath occurrences) := by
  unfold parseReservedPathCarrier
  split
  · exact not_raises_reject _
  split
  · refine not_raises_check fun _ => ?_
    refine not_raises_bind (strictPercentDecodeText_quiet _ _) fun name _ => ?_
    refine not_raises_check fun _ => ?_
    refine not_raises_check fun _ => ?_
    refine not_raises_bind ?_ fun metadata taken => ?_
    · refine not_raises_mapM fun occurrence _ => ?_
      refine not_raises_check fun _ => ?_
      exact not_raises_check fun _ => not_raises_ok _
    · rw [pathMetadata_same taken]
      have isSource : ∀ name encodedData, EncodableSource (pathSource name encodedData) := by
        intro name encodedData
        refine ⟨?_, fun text absent => (nomatch absent), ?_⟩
        all_goals
          rintro _ ⟨⟩
          exact encodable_str _
      rw [raises_buildEncodable (isSource _ _) encodable]
      refine not_oversizedIn fun name member => ?_
      obtain ⟨occurrence, isOccurrence, rfl⟩ := mem_map.mp member
      exact pathMetadata_noChunk taken occurrence isOccurrence
  · exact not_raises_invalidField _

theorem chunkDigits_code (field : FieldName) : (chunkDigits field.code).isSome = false := by
  cases field <;> decide

theorem cookieScan_noChunk {unicode : Unicode}
    (scanned : cookieScan unicode request = .ok occurrences) :
    ∀ name ∈ occurrences.map FieldOccurrence.name, (chunkDigits name).isSome = false := by
  obtain ⟨pairs, _, scanned⟩ := bind_eq_ok.mp scanned
  have contents := (scanOccurrences_scanned scanned).contents
  intro name member
  obtain ⟨occurrence, isOccurrence, rfl⟩ := mem_map.mp member
  have plain : occurrence.plain ∈ occurrences.map FieldOccurrence.plain :=
    mem_map_of_mem isOccurrence
  rw [contents] at plain
  obtain ⟨content, isContent, same⟩ := mem_map.mp plain
  obtain ⟨pair, _, found⟩ := mem_filterMap.mp isContent
  obtain ⟨classified, isClassified⟩ := classified_of_contentOf found
  rw [contentOf_classifyCookie isClassified, Option.map_map] at found
  obtain ⟨field, _, rfl⟩ := Option.map_eq_some_iff.mp found
  have sameName : field.code = occurrence.name := congrArg name same
  rw [← sameName]
  exact chunkDigits_code field

variable {selected : AdvancedCarrier}

theorem raises_parseSelected (isScan : scanRequest readers request = .ok scanned)
    (isSelected : scanned.select route = .ok selected)
    (notXml : ¬ UsesXml readers route request) :
    Raises (parseSelected readers route scanned selected) ↔
      CarrierDefect readers route scanned selected := by
  have encodable := scanRequest_encodable scanned isScan
  have found := scanRequest_found isScan
  cases selected with
  | headers => exact raises_buildEncodable (encodable_plainSource rfl rfl rfl) encodable.headers
  | query => exact raises_buildEncodable (encodable_plainSource rfl rfl rfl) encodable.query
  | cookies =>
    obtain ⟨headers, _, isScan⟩ := bind_eq_ok.mp isScan
    obtain ⟨query, _, isScan⟩ := bind_eq_ok.mp isScan
    obtain ⟨cookies, isCookies, isScan⟩ := bind_eq_ok.mp isScan
    cases isScan
    have quiet : ¬ OversizedIn false (cookies.map FieldOccurrence.name) :=
      not_oversizedIn (cookieScan_noChunk isCookies)
    exact (raises_buildEncodable (encodable_plainSource rfl rfl rfl) encodable.cookies).trans
      (iff_of_false quiet id)
  | path => exact iff_of_false (path_quiet encodable.query) id
  | body =>
    refine raises_parseBody encodable.headers fun contentType isXml =>
      notXml ⟨?_, contentType, ?_⟩
    · have present := (select_only isSelected .body).mpr rfl
      exact (found.isPresent_iff route .body).mp present
    · rw [← found.ofRequest]
      exact isXml

variable {limits : AdvancedLimits}

theorem checkEncodedLimit_quiet
    (encodable : payload.carrier ≠ .body → ∀ text, payload.encodedData = some text →
      Encodable text) :
    ¬ Raises (checkEncodedLimit limits payload) := by
  unfold checkEncodedLimit
  split
  · case _ encodedData limit isData isLimit =>
      have notBody : payload.carrier ≠ .body := by
        intro isBody
        rw [isBody] at isLimit
        cases isLimit
      obtain ⟨bytes, encoded⟩ := encode_of_encodable (encodable notBody encodedData isData)
      rw [encoded]
      exact not_raises_ite (fun _ => not_raises_reject _) fun _ => not_raises_ok _
  · exact not_raises_ok _

theorem parseSelected_encodable (encodable : scanned.Encodable)
    (parsed : parseSelected readers route scanned selected = .ok payload)
    (notBody : payload.carrier ≠ .body) :
    ∀ text, payload.encodedData = some text → Encodable text := by
  have sameCarrier := parseSelected_carrier selected payload parsed
  cases selected with
  | headers =>
    exact buildPayload_encodable (encodable_plainSource rfl rfl rfl) encodable.headers parsed
  | query =>
    exact buildPayload_encodable (encodable_plainSource rfl rfl rfl) encodable.query parsed
  | cookies =>
    exact buildPayload_encodable (encodable_plainSource rfl rfl rfl) encodable.cookies parsed
  | path =>
    obtain ⟨reserved, rawName, data, name, _, _, _, built⟩ := parseReservedPathCarrier_ok parsed
    refine buildPayload_encodable ?_ encodable.query built
    refine ⟨?_, fun text absent => (nomatch absent), ?_⟩
    all_goals
      rintro _ ⟨⟩
      exact encodable_str _
  | body => exact absurd sameCarrier notBody

theorem raises_parse (notXml : ¬ UsesXml readers route request) :
    Raises (parseAdvancedPayload readers route limits request) ↔
      ReachesDefect readers route request := by
  unfold parseAdvancedPayload ReachesDefect
  rw [raises_bind, or_iff_right (scanRequest_quiet _ _)]
  constructor
  · rintro ⟨scanned, isScan, raised⟩
    rw [raises_bind, or_iff_right (select_quiet _ _)] at raised
    obtain ⟨selected, isSelected, raised⟩ := raised
    rw [raises_bind, or_iff_right (checkMetadata_quiet _ _)] at raised
    obtain ⟨_, checked, raised⟩ := raised
    rw [raises_bind] at raised
    rcases raised with raised | ⟨payload, parsed, raised⟩
    · exact ⟨scanned, selected, isScan, isSelected, checked,
        (raises_parseSelected isScan isSelected notXml).mp raised⟩
    have encodable := scanRequest_encodable scanned isScan
    have quiet : ¬ Raises (checkEncodedLimit limits payload) :=
      checkEncodedLimit_quiet (parseSelected_encodable encodable parsed)
    rw [raises_bind, or_iff_right quiet] at raised
    obtain ⟨_, _, raised⟩ := raised
    exact absurd raised (not_raises_ok _)
  · rintro ⟨scanned, selected, isScan, isSelected, checked, defect⟩
    refine ⟨scanned, isScan, raises_bind.mpr (.inr ⟨selected, isSelected, ?_⟩)⟩
    refine raises_bind.mpr (.inr ⟨(), checked, raises_bind.mpr (.inl ?_)⟩)
    exact (raises_parseSelected isScan isSelected notXml).mpr defect

theorem parseSelected_complete :
    Ensures (parseSelected readers route scanned selected) Complete := by
  cases selected with
  | headers | query | cookies => exact buildPayload_complete
  | path =>
    intro payload parsed
    obtain ⟨reserved, rawName, data, name, _, _, _, built⟩ := parseReservedPathCarrier_ok parsed
    exact buildPayload_complete payload built
  | body => exact parseBody_built fun source occurrences _ => buildPayload_complete

/-! ### Parsing and decoding -/

def receivePayload {State : Type} (readers : PayloadReaders) (inflater : Inflater State)
    (route : AdvancedRoute) (limits : AdvancedLimits) (decodedLimit : Nat) (request : HTTPRequest) :
    Received Bytes :=
  match parseAdvancedPayload readers route limits request with
  | .ok payload => decodeAdvancedPayloadData inflater decodedLimit payload
  | .error (.rejected error) => .error (.rejected error)
  | .error (.uncaught exception) => .error (.uncaught exception)

def Answered : UploadFault → Prop
  | .rejected _ | .decodedTooLarge => True
  | .uncaught _ | .assertionError | .endless => False

variable {State : Type}

theorem gunzip_answered (inflater : Inflater State) (decodedLimit : Nat)
    (compressed : Bytes) : FailsOnly (gunzip inflater decodedLimit compressed) Answered := by
  have finishes : Finishes (boundedGzipDecompress inflater decodedLimit compressed)
      fun _ => True := by
    unfold boundedGzipDecompress
    split
    · exact .error (by decide)
    · exact inflateMembers_finishes inflater (Nat.le_refl _)
  unfold gunzip
  cases unpacked : boundedGzipDecompress inflater decodedLimit compressed with
  | ok data => exact .ok data
  | error fault =>
    cases fault with
    | invalidStream | decodedTooLarge => exact .error trivial
    | outOfRounds =>
      rw [unpacked] at finishes
      exact absurd rfl finishes

theorem orInvalidEncoding_answered {α : Type} (value : Option α) :
    FailsOnly (orInvalidEncoding value) Answered := by
  cases value with
  | none => exact .error trivial
  | some value => exact .ok value

theorem decodePercent_answered (encoded : Str) : FailsOnly (decodePercent encoded) Answered := by
  unfold decodePercent
  split
  · exact .ok _
  · exact .error trivial
  · exact .error trivial

theorem strictBase64url_answered (encoded : Str) : FailsOnly (strictBase64url encoded) Answered :=
  .ite (.error trivial) (orInvalidEncoding_answered _)

theorem decodeText_answered (inflater : Inflater State) (decodedLimit : Nat)
    (encoded : Str) (encoding : AdvancedEncoding) :
    FailsOnly (decodeText inflater decodedLimit encoded encoding) Answered := by
  cases encoding with
  | raw | base64 | hex => exact orInvalidEncoding_answered _
  | base64url => exact strictBase64url_answered _
  | percent => exact decodePercent_answered encoded
  | gzipBase64 =>
    exact (orInvalidEncoding_answered _).bind fun compressed => gunzip_answered _ _ compressed
  | gzipBase64url =>
    exact (strictBase64url_answered _).bind fun compressed => gunzip_answered _ _ compressed

theorem checkDecoded_answered (profile : AdvancedBodyProfile) (decodedLimit : Nat) (data : Bytes) :
    FailsOnly (checkDecoded profile decodedLimit data) Answered :=
  .ite (.error trivial) (.ite (.error trivial) (.ok data))

theorem decode_answered (inflater : Inflater State) (decodedLimit : Nat)
    (complete : Complete payload) :
    FailsOnly (decodeAdvancedPayloadData inflater decodedLimit payload) Answered := by
  unfold decodeAdvancedPayloadData
  cases raw : payload.rawData with
  | some data => exact checkDecoded_answered _ _ _
  | none =>
    obtain ⟨hasData, hasEncoding⟩ := complete raw
    obtain ⟨encoded, isData⟩ := Option.isSome_iff_exists.mp hasData
    obtain ⟨encoding, isEncoding⟩ := Option.isSome_iff_exists.mp hasEncoding
    rw [isData, isEncoding]
    exact (decodeText_answered _ _ _ _).bind fun data => checkDecoded_answered _ _ _

/-- An upload that is no XML body is answered, unless it reaches one of the defects. -/
theorem received_answered_iff {State : Type} {readers : PayloadReaders}
    (inflater : Inflater State) {route : AdvancedRoute} (limits : AdvancedLimits)
    (decodedLimit : Nat) {request : HTTPRequest} (notXml : ¬ UsesXml readers route request) :
    FailsOnly (receivePayload readers inflater route limits decodedLimit request) Answered ↔
      ¬ ReachesDefect readers route request := by
  rw [← raises_parse notXml]
  unfold receivePayload
  cases parsed : parseAdvancedPayload readers route limits request with
  | ok payload =>
    have complete : Complete payload := by
      obtain ⟨scanned, isAccepted⟩ := acceptance parsed
      exact parseSelected_complete payload isAccepted.parsed
    exact iff_of_true (decode_answered inflater decodedLimit complete) (not_raises_ok _)
  | error fault =>
    cases fault with
    | rejected error => exact iff_of_true (.error trivial) (not_raises_reject error)
    | uncaught exception =>
      refine iff_of_false (fun answered => ?_) (not_not.mpr (raises_uncaught exception))
      exact answered _ rfl

def refusingInflater : Inflater Unit :=
  { start := ()
    decompress := fun _ _ _ => none
    eof := fun _ => false
    unusedData := fun _ => []
    unconsumedTail := fun _ => []
    drained := fun _ => True
    drained_start := trivial
    eof_start := rfl
    consumed := fun _ _ _ _ _ impossible => nomatch impossible
    ended := fun _ _ _ _ _ _ impossible => nomatch impossible }

theorem queryUpload_answered_iff :
    FailsOnly (receivePayload sampleReaders refusingInflater sampleRoute sampleLimits 4096
      queryUpload) Answered ↔ ¬ ReachesDefect sampleReaders sampleRoute queryUpload :=
  received_answered_iff refusingInflater sampleLimits 4096 fun isXml => isXml.1 rfl

def surrogateUpload : HTTPRequest :=
  { requestLine := { RequestLine.empty with method := "POST".toList, rawPath := "/u".toList }
    fields :=
      [{ key := "Content-Type".toList
         name := "content-type".toList
         value := "application/json".toList
         rawLines := [" application/json".toList] }]
    body := map (fun char => UInt8.ofNat char.toNat) (String.toList
      "\x7b\"data\":\"aGk\",\"encoding\":\"base64url\",\"encryption\":\"none\",\"name\":\"\\ud800\"\x7d")
    parseError := none }

theorem surrogateUpload_unanswered :
    ¬ FailsOnly (receivePayload sampleReaders refusingInflater sampleRoute sampleLimits 4096
      surrogateUpload) Answered := by
  intro answered
  have raised : receivePayload sampleReaders refusingInflater sampleRoute sampleLimits 4096
      surrogateUpload = .error (.uncaught .unicodeEncodeError) := by
    decide +kernel
  exact answered _ raised

end XFerry.AdvancedPayload
