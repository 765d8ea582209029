/-
The parser of SMUGGLE queries, and the errors that it ends with.

The parameters are those of a request: a dictionary of the last values that are not blank,
and all occurrences in wire order.
-/

import XFerry.OrderedDict
import XFerry.Python.TextLemmas
import XFerry.Smuggle.RequestPolicy

namespace XFerry.SmuggleRequest

open Python
open Server (smuggleOutputFormats)

structure SmuggleQuery where
  params : OrderedDict Text Text
  occurrences : List (Text × Text)

/-- `SmugglePolicy`, as far as the parser reads it. -/
structure SmugglePolicy where
  sourceMaxBytes : Int
  nonneg : 0 ≤ sourceMaxBytes

def smuggleQueryFields : List Text :=
  ["mode", "preset", "locale", "encryption", "download_name", "download_ext", "title", "message",
    "cta_label", "delay_ms", "show_notice"].map String.toList ++ smuggleConstructorOnlyFields

def setDefault (values : OrderedDict Text Text) (entry : Text × Text) : OrderedDict Text Text :=
  match values.lookup entry.1 with
  | some _ => values
  | none => values.assign entry.1 entry.2

namespace SmuggleQuery

variable (query : SmuggleQuery)

def values : OrderedDict Text Text := query.occurrences.foldl setDefault query.params

def get (name : String) : Option Text := query.values.lookup name.toList

/-- The fields of the list that the query has. -/
def having (fields : List Text) : List Text := query.values.keys.filter fun key => key ∈ fields

end SmuggleQuery

def rejectDuplicates (seen : List Text) : List (Text × Text) → Checked Unit
  | [] => .ok ()
  | (key, _) :: rest =>
    if key ∈ seen then
      requestError ("Duplicate SMUGGLE parameter: " ++ String.ofList key)
        "duplicate_smuggle_parameter" key
    else rejectDuplicates (key :: seen) rest

variable (query : SmuggleQuery)

def rejectUnknown : Checked Unit :=
  match (query.values.keys.filter fun key => key ∉ smuggleQueryFields).min? with
  | none => .ok ()
  | some field =>
    requestError ("Unknown SMUGGLE parameter: " ++ String.ofList field)
      "unknown_smuggle_parameter" field

def requestedMode : Checked Text :=
  match query.get "mode" with
  | some text => normalizeEnum (some text) smuggleModes "mode"
  | none =>
    if query.having smuggleConstructorOnlyFields ≠ [] then
      requestError "SMUGGLE constructor options require explicit mode=constructor"
        "invalid_smuggle_configuration" "mode".toList
    else .ok smuggleDefaultMode

def rejectOptions (fields : List Text) (message : String) : Checked Unit :=
  match (query.having fields).min? with
  | none => .ok ()
  | some field => requestError message "invalid_smuggle_configuration" field

def rejectOtherMode (mode : Text) : Checked Unit :=
  if mode = smuggleDefaultMode then
    rejectOptions query smuggleConstructorOnlyFields
      "SMUGGLE constructor options require mode=constructor"
  else if mode = smuggleConstructorMode then
    rejectOptions query smuggleSimpleOnlyFields "SMUGGLE simple options require mode=simple"
  else .ok ()

def selectMode : Checked Text := do
  let mode ← requestedMode query
  (rejectOtherMode query mode).map fun _ => mode

def checkSourcePolicy (policy : SmugglePolicy) : Checked Unit :=
  if policy.sourceMaxBytes < 0 then
    requestError "Invalid SMUGGLE source policy" "invalid_smuggle_policy" "source_max_bytes".toList
  else .ok ()

/-- `_DECIMAL_RE`. -/
def isPlainDecimal : Text → Bool
  | ['0'] => true
  | first :: rest => first != '0' && (first :: rest).all fun char => decide (Between '0' '9' char)
  | [] => false

/-- What the handler gets: a client error, which it answers, or the `ValueError` of `int`. -/
inductive SmuggleFault where
  | requestError (error : SmuggleRequestError)
  | valueError

def answering {α : Type} (checked : Checked α) : Except SmuggleFault α :=
  checked.mapError .requestError

/-- `_parse_delay`.  `int` does not read more than 4300 digits. -/
def parseDelay (unicode : Unicode) (value : Option Text) : Except SmuggleFault Nat :=
  match value with
  | none => .ok defaultSmuggleBuilder.delayMs
  | some text =>
    if isPlainDecimal text = true then
      match unicode.int text with
      | none => .error .valueError
      | some delay => answering ((checkDelay delay.toNat).map fun _ => delay.toNat)
    else answering invalidDelay

/-- The part of `parse_smuggle_request` in front of the delay. -/
def parseOptions (policy : SmugglePolicy) : Checked SafeSmuggleBuilderConfig := do
  let _ ← rejectDuplicates [] query.occurrences
  let _ ← rejectUnknown query
  let mode ← selectMode query
  let _ ← checkSourcePolicy policy
  let encryption ← normalizeEnum (query.get "encryption") smuggleEncryptions "encryption"
  let locale ← normalizeLocale (query.get "locale")
  let preset ← normalizeEnum (query.get "preset") smugglePresets "preset"
  let downloadExt ← normalizeOptionalExtension (query.get "download_ext")
  let payloadEncoding ←
    normalizeEnum (query.get "payload_encoding") smugglePayloadEncodings "payload_encoding"
  let trigger ← normalizeTrigger (query.get "trigger_method") (query.get "trigger_event")
  let outputFormat ← normalizeEnum (query.get "output_format") smuggleOutputFormats "output_format"
  let downloadVariant ←
    normalizeEnum (query.get "download_variant") smuggleDownloadVariants "download_variant"
  let pageTemplate ← normalizeEnum (query.get "page_template") smugglePageTemplates "page_template"
  return { defaultSmuggleBuilder with
    mode := mode, preset := preset, locale := locale, encryption := encryption
    downloadExt := downloadExt, payloadEncoding := payloadEncoding, triggerMethod := trigger.1
    triggerEvent := trigger.2, outputFormat := outputFormat, downloadVariant := downloadVariant
    pageTemplate := pageTemplate }

/-- The part after the delay, which ends with the checks of the builder. -/
def parseTexts (unicode : Unicode) (options : SafeSmuggleBuilderConfig) (delayMs : Nat) :
    Checked SafeSmuggleBuilderConfig := do
  let showNotice ← parseBool (query.get "show_notice") "show_notice" options.showNotice
  let nullByte ← parseBool (query.get "null_byte") "null_byte" options.nullByte
  let mimeType ← normalizeMimeType (query.get "mime_type")
  let downloadName ← normalizeOptionalText unicode (query.get "download_name") "download_name" 120
  let title ← normalizeOptionalText unicode (query.get "title") "title" 120
  let message ← normalizeOptionalText unicode (query.get "message") "message" 280
  let ctaLabel ← normalizeOptionalText unicode (query.get "cta_label") "cta_label" 80
  validateBuilderConfig unicode
    { options with
      delayMs := delayMs, showNotice := showNotice, nullByte := nullByte, mimeType := mimeType
      downloadName := downloadName, title := title, message := message, ctaLabel := ctaLabel }

def parseSmuggleRequest (unicode : Unicode) (policy : SmugglePolicy) :
    Except SmuggleFault SafeSmuggleBuilderConfig := do
  let options ← answering (parseOptions query policy)
  let delayMs ← parseDelay unicode (query.get "delay_ms")
  answering (parseTexts query unicode options delayMs)

/-- A text as it is shown: within its limit, without control characters and blank ends. -/
structure ShownText (unicode : Unicode) (limit : Nat) (text : Text) : Prop where
  nonempty : text ≠ []
  short : text.length ≤ limit
  plain : text.any isControl = false
  stripped : unicode.strip text = text

/-- Every field is in its range or in its set, and none belongs to the other mode. -/
structure Permitted (unicode : Unicode) (builder : SafeSmuggleBuilderConfig) : Prop where
  mode : builder.mode ∈ smuggleModes
  preset : builder.preset ∈ smugglePresets
  locale : builder.locale ∈ smuggleLocales
  encryption : builder.encryption ∈ smuggleEncryptions
  payloadEncoding : builder.payloadEncoding ∈ smugglePayloadEncodings
  triggerMethod : builder.triggerMethod ∈ smuggleTriggerMethods
  triggerEvent : builder.triggerEvent ∈ triggerEventsOf builder.triggerMethod ∨
    isEvent builder.triggerEvent = true ∧ builder.triggerEvent.length ≤ 64
  outputFormat : builder.outputFormat ∈ smuggleOutputFormats
  downloadVariant : builder.downloadVariant ∈ smuggleDownloadVariants
  pageTemplate : builder.pageTemplate ∈ smugglePageTemplates
  downloadExt : ∀ extension ∈ builder.downloadExt, ∃ raw, isExtension raw = true ∧
    extension = raw.map Char.toLower
  downloadName : ∀ text ∈ builder.downloadName, ShownText unicode 120 text
  title : ∀ text ∈ builder.title, ShownText unicode 120 text
  message : ∀ text ∈ builder.message, ShownText unicode 280 text
  ctaLabel : ∀ text ∈ builder.ctaLabel, ShownText unicode 80 text
  mimeType : builder.mimeType ≠ [] ∧ builder.mimeType.length ≤ 120 ∧
    builder.mimeType.any isControl = false
  delayMs : builder.delayMs ≤ builderMaxDelayMs
  simple : builder.mode = smuggleDefaultMode → builder.constructorOptions = []
  constructor : builder.mode ≠ smuggleDefaultMode → builder.simpleOptions = []

/-- Nothing is rejected before the delay is read. -/
structure ReachesDelay (query : SmuggleQuery) : Prop where
  distinct : (query.occurrences.map Prod.fst).Nodup
  known : ∀ key ∈ query.values.keys, key ∈ smuggleQueryFields
  simple : ∀ text ∈ query.get "mode", text = smuggleDefaultMode
  plain : query.having smuggleConstructorOnlyFields = []
  encryption : ∀ text ∈ query.get "encryption", text ∈ smuggleEncryptions
  locale : ∀ text ∈ query.get "locale", text ∈ smuggleLocales
  preset : ∀ text ∈ query.get "preset", text ∈ smugglePresets
  downloadExt : ∀ text ∈ query.get "download_ext", isExtension (withoutDot text) = true

/-- A delay in canonical form, with more digits than `int` reads. -/
def OversizedDelay (query : SmuggleQuery) : Prop :=
  ∃ text ∈ query.get "delay_ms", isPlainDecimal text = true ∧ maxStrDigits < text.length

end XFerry.SmuggleRequest
