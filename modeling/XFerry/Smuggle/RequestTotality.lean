/-
The parser of SMUGGLE queries answers everything but a delay that is too long to be read.
-/

import XFerry.Smuggle.RequestParsing

namespace XFerry.SmuggleRequest

open Python List Ensures

variable {α β : Type} {unicode : Unicode}

theorem of_ite_eq_ok {condition : Prop} [Decidable condition] {result value : α}
    {fault : SmuggleRequestError}
    (checked : (if condition then .ok result else .error fault : Checked α) = .ok value) :
    condition ∧ result = value := by
  by_cases holds : condition
  · rw [if_pos holds] at checked
    exact ⟨holds, Except.ok.inj checked⟩
  · rw [if_neg holds] at checked
    cases checked

section Tokens

variable {value : Option Text} {allowed : List Text} {message code : String} {field text : Text}

theorem normalizeToken_eq_ok
    (checked : normalizeToken value allowed message code field = .ok text) :
    value.getD (allowed.headD []) ∈ allowed ∧ value.getD (allowed.headD []) = text :=
  of_ite_eq_ok checked

theorem normalizeToken_succeeds (nonempty : allowed ≠ []) :
    (∃ text, normalizeToken value allowed message code field = .ok text) ↔
      ∀ raw ∈ value, raw ∈ allowed := by
  constructor
  · rintro ⟨text, checked⟩ raw isRaw
    have member := (normalizeToken_eq_ok checked).1
    rwa [isRaw] at member
  · intro listed
    refine ⟨value.getD (allowed.headD []), if_pos ?_⟩
    cases value with
    | none =>
      cases allowed with
      | nil => exact absurd rfl nonempty
      | cons first rest => exact mem_cons_self
    | some raw => exact listed raw rfl

end Tokens

variable {value result : Option Text}

theorem normalizeOptionalExtension_eq_ok (checked : normalizeOptionalExtension value = .ok result) :
    (∀ text ∈ value, isExtension (withoutDot text) = true) ∧
      ∀ extension ∈ result, ∃ raw, isExtension raw = true ∧ extension = raw.map Char.toLower := by
  cases value with
  | none =>
    cases checked
    exact ⟨nofun, nofun⟩
  | some text =>
    obtain ⟨extension, normalized, rfl⟩ := exists_of_map_eq_ok checked
    obtain ⟨allowed, rfl⟩ := of_ite_eq_ok normalized
    refine ⟨fun other same => ?_, fun other same => ?_⟩
    · cases same
      exact allowed
    · cases same
      exact ⟨_, allowed, rfl⟩

variable {builder : SafeSmuggleBuilderConfig}

theorem checkTrigger_eq_ok (checked : checkTrigger builder = .ok ()) :
    builder.triggerMethod ∈ smuggleTriggerMethods ∧
      (builder.triggerEvent ∈ triggerEventsOf builder.triggerMethod ∨
        isEvent builder.triggerEvent = true ∧ builder.triggerEvent.length ≤ 64) := by
  obtain ⟨trigger, normalized, _⟩ := bind_eq_ok.mp checked
  unfold normalizeTrigger at normalized
  cases known : normalizeEnum (some builder.triggerMethod) smuggleTriggerMethods
      "trigger_method" with
  | error fault =>
    rw [known] at normalized
    cases normalized
  | ok method =>
    rw [known] at normalized
    obtain ⟨listed, same⟩ := normalizeToken_eq_ok known
    obtain ⟨allowed, _⟩ := of_ite_eq_ok normalized
    rw [← same] at allowed
    exact ⟨listed, allowed⟩

theorem normalizeOptionalText_eq_ok {field : String} {limit : Nat}
    (checked : normalizeOptionalText unicode value field limit = .ok result) :
    ∀ text ∈ result, ShownText unicode limit text := by
  cases value with
  | none =>
    cases checked
    exact nofun
  | some text =>
    unfold normalizeOptionalText at checked
    dsimp only at checked
    split at checked
    · cases checked
    rename_i short
    split at checked
    · cases checked
    rename_i plain
    split at checked
    · cases checked
      exact nofun
    rename_i stripped nonempty
    cases checked
    intro shown same
    cases same
    obtain ⟨before, after, whole, _⟩ := trim_split unicode.isSpace text
    have inside : text = before ++ unicode.strip text ++ after := whole
    rw [inside, length_append, length_append] at short
    rw [inside, any_append, any_append, Bool.not_eq_true,
      Bool.or_eq_false_iff, Bool.or_eq_false_iff] at plain
    exact
      { nonempty := nonempty
        short := by omega
        plain := plain.1.2
        stripped := strip_strip unicode text }

theorem normalizeMimeType_eq_ok {value result : Text}
    (checked : normalizeMimeType (some value) = .ok result) :
    result ≠ [] ∧ result.length ≤ 120 ∧ result.any isControl = false := by
  unfold normalizeMimeType at checked
  dsimp only at checked
  split at checked
  · cases checked
  rename_i short
  split at checked
  · cases checked
  rename_i plain
  cases checked
  rw [not_or, Bool.not_eq_true] at plain
  exact ⟨plain.1, by omega, plain.2⟩

theorem checkMode_eq_ok (checked : checkMode builder = .ok ()) :
    (builder.mode = smuggleDefaultMode → builder.constructorOptions = []) ∧
      (builder.mode ≠ smuggleDefaultMode → builder.simpleOptions = []) := by
  unfold checkMode at checked
  split at checked
  · case isTrue isSimple =>
    split at checked
    · case h_1 noOptions => exact ⟨fun _ => noOptions, fun other => absurd isSimple other⟩
    · cases checked
  rename_i other
  split at checked
  · case h_1 noOptions => exact ⟨fun isSimple => absurd isSimple other, fun _ => noOptions⟩
  · cases checked

theorem validateBuilderConfig_permitted (builder : SafeSmuggleBuilderConfig) :
    Ensures (validateBuilderConfig unicode builder) (Permitted unicode) := by
  intro result validated
  obtain ⟨_, mode, validated⟩ := bind_eq_ok.mp validated
  obtain ⟨_, preset, validated⟩ := bind_eq_ok.mp validated
  obtain ⟨_, locale, validated⟩ := bind_eq_ok.mp validated
  obtain ⟨_, encryption, validated⟩ := bind_eq_ok.mp validated
  obtain ⟨_, payloadEncoding, validated⟩ := bind_eq_ok.mp validated
  obtain ⟨_, trigger, validated⟩ := bind_eq_ok.mp validated
  obtain ⟨_, outputFormat, validated⟩ := bind_eq_ok.mp validated
  obtain ⟨_, downloadVariant, validated⟩ := bind_eq_ok.mp validated
  obtain ⟨_, pageTemplate, validated⟩ := bind_eq_ok.mp validated
  obtain ⟨_, downloadExt, validated⟩ := bind_eq_ok.mp validated
  obtain ⟨_, downloadName, validated⟩ := bind_eq_ok.mp validated
  obtain ⟨_, title, validated⟩ := bind_eq_ok.mp validated
  obtain ⟨_, message, validated⟩ := bind_eq_ok.mp validated
  obtain ⟨_, ctaLabel, validated⟩ := bind_eq_ok.mp validated
  obtain ⟨_, mimeType, validated⟩ := bind_eq_ok.mp validated
  obtain ⟨_, delayMs, validated⟩ := bind_eq_ok.mp validated
  obtain ⟨_, applicable, validated⟩ := bind_eq_ok.mp validated
  cases validated
  exact
    { mode := (normalizeToken_eq_ok mode).1
      preset := (normalizeToken_eq_ok preset).1
      locale := (normalizeToken_eq_ok locale).1
      encryption := (normalizeToken_eq_ok encryption).1
      payloadEncoding := (normalizeToken_eq_ok payloadEncoding).1
      triggerMethod := (checkTrigger_eq_ok trigger).1
      triggerEvent := (checkTrigger_eq_ok trigger).2
      outputFormat := (normalizeToken_eq_ok outputFormat).1
      downloadVariant := (normalizeToken_eq_ok downloadVariant).1
      pageTemplate := (normalizeToken_eq_ok pageTemplate).1
      downloadExt := (normalizeOptionalExtension_eq_ok downloadExt).2
      downloadName := normalizeOptionalText_eq_ok downloadName
      title := normalizeOptionalText_eq_ok title
      message := normalizeOptionalText_eq_ok message
      ctaLabel := normalizeOptionalText_eq_ok ctaLabel
      mimeType := normalizeMimeType_eq_ok mimeType
      delayMs := (of_ite_eq_ok delayMs).1
      simple := (checkMode_eq_ok applicable).1
      constructor := (checkMode_eq_ok applicable).2 }

variable {query : SmuggleQuery}

theorem rejectDuplicates_eq_ok {seen : List Text} {occurrences : List (Text × Text)} :
    rejectDuplicates seen occurrences = .ok () ↔
      (occurrences.map Prod.fst).Nodup ∧ ∀ key ∈ occurrences.map Prod.fst, key ∉ seen := by
  induction occurrences generalizing seen with
  | nil => simp [rejectDuplicates]
  | cons entry rest ih =>
    obtain ⟨key, raw⟩ := entry
    rw [rejectDuplicates, map_cons, nodup_cons, forall_mem_cons]
    by_cases repeated : key ∈ seen
    · rw [if_pos repeated]
      constructor
      · exact nofun
      · exact fun fresh => absurd repeated fresh.2.1
    · rw [if_neg repeated, ih]
      constructor
      · rintro ⟨distinct, fresh⟩
        refine ⟨⟨fun again => fresh key again mem_cons_self, distinct⟩, repeated, ?_⟩
        exact fun other member known => fresh other member (mem_cons_of_mem _ known)
      · rintro ⟨⟨first, distinct⟩, _, fresh⟩
        refine ⟨distinct, fun other member known => ?_⟩
        rcases mem_cons.mp known with rfl | before
        · exact first member
        · exact fresh other member before

theorem of_min?_eq_ok {names : List Text} {message : Text → String} {code : String}
    (checked : (match names.min? with
      | none => .ok ()
      | some field => requestError (message field) code field : Checked Unit) = .ok ()) :
    names = [] := by
  split at checked
  · case h_1 isNone => exact min?_eq_none_iff.mp isNone
  · cases checked

theorem rejectUnknown_eq_ok :
    rejectUnknown query = .ok () ↔ ∀ key ∈ query.values.keys, key ∈ smuggleQueryFields := by
  have known : (∀ key ∈ query.values.keys, key ∈ smuggleQueryFields) ↔
      (query.values.keys.filter fun key => key ∉ smuggleQueryFields) = [] := by
    simp
  rw [known]
  constructor
  · exact of_min?_eq_ok
  · intro none
    rw [rejectUnknown, none]
    rfl

variable {fields : List Text}

theorem rejectOptions_eq_ok {message : String} :
    rejectOptions query fields message = .ok () ↔ query.having fields = [] := by
  constructor
  · exact of_min?_eq_ok
  · intro none
    rw [rejectOptions, none]
    rfl

variable {text : Text}

theorem mem_having {name : String}
    (found : query.get name = some text) (listed : name.toList ∈ fields) :
    name.toList ∈ query.having fields := by
  have entry := OrderedDict.lookup_eq_some.mp found
  exact mem_filter.mpr ⟨mem_map_of_mem entry, decide_eq_true listed⟩

theorem requestedMode_eq_ok {mode : Text} (requested : requestedMode query = .ok mode) :
    mode = smuggleDefaultMode ∧ (∀ text ∈ query.get "mode", text = smuggleDefaultMode) ∨
      mode = smuggleConstructorMode := by
  unfold requestedMode at requested
  split at requested
  · case h_1 raw isRaw =>
    obtain ⟨listed, same⟩ := normalizeToken_eq_ok requested
    rw [isRaw]
    rcases mem_cons.mp listed with isSimple | listed
    · left
      refine ⟨same.symm.trans isSimple, fun text isText => ?_⟩
      cases isText
      exact isSimple
    · right
      exact same.symm.trans (mem_singleton.mp listed)
  · case h_2 absent =>
    split at requested
    · cases requested
    · cases requested
      rw [absent]
      exact .inl ⟨rfl, nofun⟩

theorem selectMode_eq_ok (delayed : query.get "delay_ms" = some text) :
    (∃ mode, selectMode query = .ok mode) ↔ (∀ text ∈ query.get "mode", text = smuggleDefaultMode) ∧
        query.having smuggleConstructorOnlyFields = [] := by
  constructor
  · rintro ⟨mode, selected⟩
    obtain ⟨requestedMode, requested, taken⟩ := bind_eq_ok.mp selected
    obtain ⟨_, accepted, rfl⟩ := exists_of_map_eq_ok taken
    unfold rejectOtherMode at accepted
    rcases requestedMode_eq_ok requested with ⟨rfl, isSimple⟩ | rfl
    · exact ⟨isSimple, rejectOptions_eq_ok.mp accepted⟩
    have present := mem_having delayed (by decide : "delay_ms".toList ∈ smuggleSimpleOnlyFields)
    rw [rejectOptions_eq_ok.mp accepted] at present
    cases present
  · rintro ⟨isSimple, plain⟩
    have requested : requestedMode query = .ok smuggleDefaultMode := by
      unfold requestedMode
      cases isMode : query.get "mode" with
      | none => simp only [plain, ne_eq, not_true, if_false]
      | some raw =>
        rw [isSimple raw isMode]
        rfl
    refine ⟨smuggleDefaultMode, ?_⟩
    rw [selectMode, bind_of_ok requested, rejectOtherMode, if_pos rfl,
      rejectOptions_eq_ok.mpr plain]
    rfl

theorem isDecimal_of_isPlainDecimal (plain : isPlainDecimal text = true) : IsDecimal text := by
  unfold isPlainDecimal at plain
  split at plain
  · decide
  · rw [Bool.and_eq_true, all_eq_true] at plain
    exact ⟨cons_ne_nil _ _, fun char member => of_decide_eq_true (plain.2 char member)⟩
  · cases plain

theorem of_answering_eq_ok {checked : Checked α} {result : α}
    (answered : answering checked = .ok result) : checked = .ok result := by
  cases checked with
  | error error => cases answered
  | ok value =>
    cases answered
    rfl

theorem answering_ne_valueError {checked : Checked α} : answering checked ≠ .error .valueError := by
  intro raised
  cases checked <;> cases raised

theorem parseDelay_raises {value : Option Text} :
    parseDelay unicode value = .error .valueError ↔
      ∃ text ∈ value, isPlainDecimal text = true ∧ maxStrDigits < text.length := by
  cases value with
  | none =>
    constructor
    · exact nofun
    · rintro ⟨_, ⟨⟩, _⟩
  | some text =>
    unfold parseDelay
    dsimp only
    by_cases plain : isPlainDecimal text = true
    · rw [if_pos plain, int_of_isDecimal unicode (isDecimal_of_isPlainDecimal plain)]
      by_cases long : maxStrDigits < text.length
      · rw [if_pos long]
        exact iff_of_true rfl ⟨text, rfl, plain, long⟩
      rw [if_neg long]
      refine iff_of_false answering_ne_valueError ?_
      rintro ⟨other, ⟨⟩, _, tooLong⟩
      exact long tooLong
    · rw [if_neg plain]
      refine iff_of_false answering_ne_valueError ?_
      rintro ⟨other, ⟨⟩, isPlain, _⟩
      exact plain isPlain

theorem exists_normalizeOptionalExtension {value : Option Text}
    (allowed : ∀ text ∈ value, isExtension (withoutDot text) = true) :
    ∃ extension, normalizeOptionalExtension value = .ok extension := by
  cases value with
  | none => exact ⟨none, rfl⟩
  | some text =>
    refine ⟨some ((withoutDot text).map Char.toLower), ?_⟩
    rw [normalizeOptionalExtension, normalizeExtension, if_pos (allowed text rfl)]
    rfl

theorem get_eq_none_of_having (none : query.having fields = []) (name : String)
    (listed : name.toList ∈ fields) : query.get name = .none := by
  cases found : query.get name with
  | none => rfl
  | some text =>
    have member := mem_having found listed
    rw [none] at member
    cases member

theorem parseOptions_succeeds (policy : SmugglePolicy)
    (delayed : query.get "delay_ms" = some text) :
    (∃ options, parseOptions query policy = .ok options) ↔ ReachesDelay query := by
  constructor
  · rintro ⟨options, parsed⟩
    obtain ⟨_, distinct, parsed⟩ := bind_eq_ok.mp parsed
    obtain ⟨_, known, parsed⟩ := bind_eq_ok.mp parsed
    obtain ⟨mode, selected, parsed⟩ := bind_eq_ok.mp parsed
    obtain ⟨_, _, parsed⟩ := bind_eq_ok.mp parsed
    obtain ⟨_, encryption, parsed⟩ := bind_eq_ok.mp parsed
    obtain ⟨_, locale, parsed⟩ := bind_eq_ok.mp parsed
    obtain ⟨_, preset, parsed⟩ := bind_eq_ok.mp parsed
    obtain ⟨_, extension, _⟩ := bind_eq_ok.mp parsed
    obtain ⟨isSimple, plain⟩ := (selectMode_eq_ok delayed).mp ⟨mode, selected⟩
    exact
      { distinct := (rejectDuplicates_eq_ok.mp distinct).1
        known := rejectUnknown_eq_ok.mp known
        simple := isSimple
        plain := plain
        encryption := (normalizeToken_succeeds (by decide)).mp ⟨_, encryption⟩
        locale := (normalizeToken_succeeds (by decide)).mp ⟨_, locale⟩
        preset := (normalizeToken_succeeds (by decide)).mp ⟨_, preset⟩
        downloadExt := (normalizeOptionalExtension_eq_ok extension).1 }
  · intro reaches
    have absent := get_eq_none_of_having reaches.plain
    obtain ⟨mode, selected⟩ := (selectMode_eq_ok delayed).mpr ⟨reaches.simple, reaches.plain⟩
    obtain ⟨encryption, isEncryption⟩ : ∃ text, normalizeEnum (query.get "encryption")
        smuggleEncryptions "encryption" = .ok text :=
      (normalizeToken_succeeds (by decide)).mpr reaches.encryption
    obtain ⟨locale, isLocale⟩ : ∃ text, normalizeLocale (query.get "locale") = .ok text :=
      (normalizeToken_succeeds (by decide)).mpr reaches.locale
    obtain ⟨preset, isPreset⟩ : ∃ text,
        normalizeEnum (query.get "preset") smugglePresets "preset" = .ok text :=
      (normalizeToken_succeeds (by decide)).mpr reaches.preset
    obtain ⟨extension, isExtension⟩ := exists_normalizeOptionalExtension reaches.downloadExt
    have distinct : rejectDuplicates [] query.occurrences = .ok () :=
      rejectDuplicates_eq_ok.mpr ⟨reaches.distinct, fun _ _ => not_mem_nil⟩
    have allowed : checkSourcePolicy policy = .ok () := if_neg (Int.not_lt.mpr policy.nonneg)
    rw [parseOptions, bind_of_ok distinct,
      bind_of_ok (rejectUnknown_eq_ok.mpr reaches.known), bind_of_ok selected,
      bind_of_ok allowed, bind_of_ok isEncryption, bind_of_ok isLocale,
      bind_of_ok isPreset, bind_of_ok isExtension,
      absent "payload_encoding" (by decide), absent "trigger_method" (by decide),
      absent "trigger_event" (by decide), absent "output_format" (by decide),
      absent "download_variant" (by decide), absent "page_template" (by decide)]
    exact ⟨_, rfl⟩

theorem parseTexts_permitted (options : SafeSmuggleBuilderConfig) (delayMs : Nat) :
    Ensures (parseTexts query unicode options delayMs) (Permitted unicode) := by
  refine .andThen fun _ => .andThen fun _ => .andThen fun _ => .andThen fun _ => ?_
  refine .andThen fun _ => .andThen fun _ => .andThen fun _ => ?_
  exact validateBuilderConfig_permitted _

theorem parseSmuggleRequest_raises {policy : SmugglePolicy} :
    parseSmuggleRequest query unicode policy = .error .valueError ↔
      (∃ options, parseOptions query policy = .ok options) ∧ OversizedDelay query := by
  have oversized : parseDelay unicode (query.get "delay_ms") = .error .valueError ↔
      OversizedDelay query := parseDelay_raises
  rw [← oversized, parseSmuggleRequest]
  cases parseOptions query policy with
  | error error =>
    refine iff_of_false nofun ?_
    rintro ⟨⟨_, ⟨⟩⟩, _⟩
  | ok options =>
    rw [and_iff_right ⟨options, rfl⟩]
    cases reading : parseDelay unicode (query.get "delay_ms") with
    | error fault =>
      constructor
      all_goals
        intro raised
        cases raised
        rfl
    | ok delayMs => exact iff_of_false answering_ne_valueError nofun

/-- Every query is answered with a permitted request or with a client error, but for the
delay that `int` does not read. -/
theorem parseSmuggleRequest_answers_iff (unicode : Unicode) (policy : SmugglePolicy)
    (query : SmuggleQuery) :
    (parseSmuggleRequest query unicode policy ≠ .error .valueError ∧
        Ensures (parseSmuggleRequest query unicode policy) (Permitted unicode)) ↔
      ¬ (ReachesDelay query ∧ OversizedDelay query) := by
  have permitted : Ensures (parseSmuggleRequest query unicode policy) (Permitted unicode) := by
    intro builder parsed
    obtain ⟨options, _, parsed⟩ := bind_eq_ok.mp parsed
    obtain ⟨delayMs, _, parsed⟩ := bind_eq_ok.mp parsed
    exact parseTexts_permitted _ _ builder (of_answering_eq_ok parsed)
  rw [and_iff_left permitted, not_iff_not, parseSmuggleRequest_raises]
  constructor
  · rintro ⟨parsed, oversized⟩
    obtain ⟨text, delayed, _⟩ := id oversized
    exact ⟨(parseOptions_succeeds policy delayed).mp parsed, oversized⟩
  · rintro ⟨reaches, oversized⟩
    obtain ⟨text, delayed, _⟩ := id oversized
    exact ⟨(parseOptions_succeeds policy delayed).mpr reaches, oversized⟩

/-- A delay of 4301 digits, and no other parameter. -/
def longDelay : SmuggleQuery :=
  { params := OrderedDict.empty.assign "delay_ms".toList ('1' :: replicate 4300 '0')
    occurrences := [] }

theorem longDelay_reaches : ReachesDelay longDelay :=
  { distinct := nodup_nil
    known := by decide +kernel
    simple := by decide +kernel
    plain := by decide +kernel
    encryption := by decide +kernel
    locale := by decide +kernel
    preset := by decide +kernel
    downloadExt := by decide +kernel }

theorem longDelay_escapes :
    ¬ ∀ unicode policy query,
      parseSmuggleRequest query unicode policy ≠ .error .valueError ∧
        Ensures (parseSmuggleRequest query unicode policy) (Permitted unicode) := by
  intro answered
  have oversized : OversizedDelay longDelay :=
    ⟨'1' :: replicate 4300 '0', rfl, by decide +kernel, by decide +kernel⟩
  apply (answered .ascii ⟨0, Int.le_refl 0⟩ longDelay).1
  apply parseSmuggleRequest_raises.mpr
  exact ⟨(parseOptions_succeeds _ rfl).mpr longDelay_reaches, oversized⟩

end XFerry.SmuggleRequest
