/-
The vocabulary of SMUGGLE requests, and the checks of single values.

The order in which Python passes a frozenset is not laid down.  It only chooses the field
that an error of the last check of a builder names.
-/

import XFerry.Server.OneShotArtifacts

namespace XFerry.SmuggleRequest

open Python
open Server (smuggleOutputFormats)

structure SmuggleRequestError where
  message : Text
  code : Text
  field : Text

abbrev Checked (α : Type) := Except SmuggleRequestError α

def requestError {α : Type} (message code : String) (field : Text) : Checked α :=
  .error { message := message.toList, code := code.toList, field := field }

def smuggleEncryptions : List Text := ["none", "xor", "aes"].map String.toList

def smuggleModes : List Text := ["simple", "constructor"].map String.toList

def smuggleDefaultMode : Text := "simple".toList

def smuggleConstructorMode : Text := "constructor".toList

def smuggleLocales : List Text := ["ru", "en"].map String.toList

def smugglePresets : List Text := ["direct", "card_manual", "card_auto"].map String.toList

def smugglePayloadEncodings : List Text :=
  ["base64", "base64url", "base32", "percent", "reverse", "xor", "hex", "split", "attrs",
    "charcode"].map String.toList

def smugglePageTemplates : List Text :=
  ["default", "minimal", "corporate", "drive", "npf-zip-archive-help"].map String.toList

def smuggleDownloadVariants : List Text :=
  ["blob-anchor", "data-uri", "iframe-blob", "filereader", "fetch-blob", "window-open",
    "loc-assign", "form-post", "timeout-blob", "promise-blob", "raf-blob", "microtask-blob",
    "observer-blob", "response-blob", "readable-stream", "message-channel-blob",
    "idle-callback-blob"].map String.toList

/-- `SMUGGLE_TRIGGER_EVENTS`; each method takes custom events too. -/
def smuggleTriggerEvents : List (Text × List Text) :=
  [("svg", ["onload"]), ("body", ["onload", "onpageshow"]), ("img", ["onerror", "onload"]),
    ("audio", ["onerror", "onloadstart"]), ("video", ["onerror", "onloadstart"]),
    ("source", ["onerror"]), ("input", ["onfocus", "oninput", "onchange", "onkeydown"]),
    ("select", ["onfocus", "onchange"]),
    ("button", ["onfocus", "onclick", "onpointerdown", "onkeydown"]),
    ("textarea", ["onfocus", "oninput", "onchange", "onkeydown"]),
    ("details", ["ontoggle", "onclick"]), ("iframe", ["srcdoc", "onload"]),
    ("animate", ["onbegin", "onend", "onrepeat"]),
    ("animmotion", ["onbegin", "onend", "onrepeat"]), ("set", ["onbegin", "onend"]),
    ("cssanim", ["onanimationstart", "onanimationend", "onanimationiteration"]),
    ("csstransition", ["ontransitionrun", "ontransitionstart", "ontransitionend"]),
    ("link", ["onerror", "onload"]), ("script", ["onerror"]), ("form", ["onsubmit"]),
    ("custom", ["onfocus"]), ("focusin", ["onfocusin"]),
    ("contentvis", ["oncontentvisibilityautostatechange"])].map
      fun entry => (entry.1.toList, entry.2.map String.toList)

def smuggleTriggerMethods : List Text := smuggleTriggerEvents.map Prod.fst

def triggerEventsOf (method : Text) : List Text := (smuggleTriggerEvents.lookup method).getD []

def smuggleConstructorOnlyFields : List Text :=
  ["payload_encoding", "trigger_method", "trigger_event", "output_format", "download_variant",
    "page_template", "mime_type", "null_byte"].map String.toList

def smuggleSimpleOnlyFields : List Text := ["preset", "cta_label", "delay_ms"].map String.toList

def builderMaxDelayMs : Nat := 10000

def isControl (char : Char) : Bool := decide (char.toNat < 32) || decide (char.toNat = 127)

def normalizeToken (value : Option Text) (allowed : List Text) (message code : String)
    (field : Text) : Checked Text :=
  let raw := value.getD (allowed.headD [])
  if raw ∈ allowed then .ok raw else requestError message code field

def normalizeLocale (value : Option Text) : Checked Text :=
  normalizeToken value smuggleLocales "Invalid SMUGGLE locale" "invalid_smuggle_locale"
    "locale".toList

def normalizeEnum (value : Option Text) (allowed : List Text) (field : String) : Checked Text :=
  normalizeToken value allowed
    ("Invalid SMUGGLE " ++ (if field = "mode" ∨ field = "encryption" then "" else "builder ") ++
      field)
    ("invalid_smuggle_" ++ field) field.toList

def isExtensionPart : Text → Bool
  | [] => false
  | first :: rest =>
    first.isAlphanum && rest.all fun char => char.isAlphanum || ['_', '+', '-'].contains char

/-- `_EXTENSION_RE`, within the length. -/
def isExtension (raw : Text) : Bool :=
  decide (raw.length ≤ 32) && (raw.splitOn '.').all isExtensionPart

def withoutDot : Text → Text
  | '.' :: rest => rest
  | raw => raw

def normalizeExtension (value : Text) : Checked Text :=
  if isExtension (withoutDot value) = true then .ok ((withoutDot value).map Char.toLower)
  else
    requestError "Invalid SMUGGLE builder extension" "invalid_smuggle_extension"
      "download_ext".toList

def normalizeOptionalExtension (value : Option Text) : Checked (Option Text) :=
  match value with
  | none => .ok none
  | some text => (normalizeExtension text).map some

def parseBool (value : Option Text) (field : String) (fallback : Bool) : Checked Bool :=
  match value with
  | none => .ok fallback
  | some ['1'] => .ok true
  | some ['0'] => .ok false
  | some _ =>
    requestError ("Invalid SMUGGLE builder " ++ field) ("invalid_smuggle_" ++ field) field.toList

/-- `_EVENT_RE`. -/
def isEvent : Text → Bool
  | 'o' :: 'n' :: first :: rest =>
    first.isLower && rest.all fun char =>
      char.isLower || char.isDigit || char = '_' || char = '-'
  | _ => false

def normalizeTrigger (method event : Option Text) : Checked (Text × Text) :=
  match normalizeEnum method smuggleTriggerMethods "trigger_method" with
  | .error fault => .error fault
  | .ok methodValue =>
    let events := triggerEventsOf methodValue
    match event with
    | none => .ok (methodValue, events.headD [])
    | some event =>
      if event ∈ events ∨ isEvent event = true ∧ event.length ≤ 64 then .ok (methodValue, event)
      else
        requestError "Invalid SMUGGLE builder trigger event" "invalid_smuggle_trigger_event"
          "trigger_event".toList

def normalizeOptionalText (unicode : Unicode) (value : Option Text) (field : String)
    (limit : Nat) : Checked (Option Text) :=
  match value with
  | none => .ok none
  | some text =>
    if limit < text.length then
      requestError ("SMUGGLE builder " ++ field ++ " is too long") "smuggle_field_too_long"
        field.toList
    else if text.any isControl = true then
      requestError ("Invalid SMUGGLE builder " ++ field) ("invalid_smuggle_" ++ field) field.toList
    else
      match unicode.strip text with
      | [] => .ok none
      | stripped => .ok (some stripped)

def normalizeMimeType (value : Option Text) : Checked Text :=
  match value with
  | none => .ok "application/octet-stream".toList
  | some text =>
    if 120 < text.length then
      requestError "SMUGGLE builder MIME type is too long" "smuggle_field_too_long"
        "mime_type".toList
    else if text = [] ∨ text.any isControl = true then
      requestError "Invalid SMUGGLE builder MIME type" "invalid_smuggle_mime_type"
        "mime_type".toList
    else .ok text

structure SafeSmuggleBuilderConfig where
  mode : Text
  preset : Text
  locale : Text
  encryption : Text
  downloadName : Option Text
  downloadExt : Option Text
  title : Option Text
  message : Option Text
  ctaLabel : Option Text
  delayMs : Nat
  showNotice : Bool
  payloadEncoding : Text
  triggerMethod : Text
  triggerEvent : Text
  outputFormat : Text
  downloadVariant : Text
  pageTemplate : Text
  mimeType : Text
  nullByte : Bool

def defaultSmuggleBuilder : SafeSmuggleBuilderConfig :=
  { mode := "simple".toList, preset := "direct".toList, locale := "ru".toList
    encryption := "none".toList, downloadName := none, downloadExt := none, title := none
    message := none, ctaLabel := none, delayMs := 0, showNotice := true
    payloadEncoding := "base64".toList, triggerMethod := "svg".toList
    triggerEvent := "onload".toList, outputFormat := "html".toList
    downloadVariant := "blob-anchor".toList, pageTemplate := "default".toList
    mimeType := "application/octet-stream".toList, nullByte := false }

/-- The options of the constructor that are not at their defaults. -/
def SafeSmuggleBuilderConfig.constructorOptions (builder : SafeSmuggleBuilderConfig) : List Text :=
  let defaults := defaultSmuggleBuilder
  ([("payload_encoding", builder.payloadEncoding != defaults.payloadEncoding),
    ("trigger_method", builder.triggerMethod != defaults.triggerMethod),
    ("trigger_event", builder.triggerEvent != defaults.triggerEvent),
    ("output_format", builder.outputFormat != defaults.outputFormat),
    ("download_variant", builder.downloadVariant != defaults.downloadVariant),
    ("page_template", builder.pageTemplate != defaults.pageTemplate),
    ("mime_type", builder.mimeType != defaults.mimeType),
    ("null_byte", builder.nullByte != defaults.nullByte)].filter Prod.snd).map
      fun entry => entry.1.toList

def SafeSmuggleBuilderConfig.simpleOptions (builder : SafeSmuggleBuilderConfig) : List Text :=
  let defaults := defaultSmuggleBuilder
  ([("preset", builder.preset != defaults.preset),
    ("cta_label", builder.ctaLabel != defaults.ctaLabel),
    ("delay_ms", builder.delayMs != defaults.delayMs)].filter Prod.snd).map
      fun entry => entry.1.toList

def checkMode (builder : SafeSmuggleBuilderConfig) : Checked Unit :=
  if builder.mode = smuggleDefaultMode then
    match builder.constructorOptions with
    | [] => .ok ()
    | field :: _ =>
      requestError "SMUGGLE constructor options require mode=constructor"
        "invalid_smuggle_configuration" field
  else
    match builder.simpleOptions with
    | [] => .ok ()
    | field :: _ =>
      requestError "SMUGGLE simple options require mode=simple" "invalid_smuggle_configuration"
        field

def checkTrigger (builder : SafeSmuggleBuilderConfig) : Checked Unit := do
  let trigger ← normalizeTrigger (some builder.triggerMethod) (some builder.triggerEvent)
  if trigger = (builder.triggerMethod, builder.triggerEvent) then .ok ()
  else
    requestError "Invalid SMUGGLE builder trigger event" "invalid_smuggle_trigger_event"
      "trigger_event".toList

def invalidDelay {α : Type} : Checked α :=
  requestError "Invalid SMUGGLE builder delay" "invalid_smuggle_delay" "delay_ms".toList

def checkDelay (delayMs : Nat) : Checked Unit :=
  if delayMs ≤ builderMaxDelayMs then .ok () else invalidDelay

/-- `validate_builder_config`, with the builder as it leaves it. -/
def validateBuilderConfig (unicode : Unicode) (builder : SafeSmuggleBuilderConfig) :
    Checked SafeSmuggleBuilderConfig := do
  let _ ← normalizeEnum (some builder.mode) smuggleModes "mode"
  let _ ← normalizeEnum (some builder.preset) smugglePresets "preset"
  let _ ← normalizeLocale (some builder.locale)
  let _ ← normalizeEnum (some builder.encryption) smuggleEncryptions "encryption"
  let _ ← normalizeEnum (some builder.payloadEncoding) smugglePayloadEncodings "payload_encoding"
  checkTrigger builder
  let _ ← normalizeEnum (some builder.outputFormat) smuggleOutputFormats "output_format"
  let _ ← normalizeEnum (some builder.downloadVariant) smuggleDownloadVariants "download_variant"
  let _ ← normalizeEnum (some builder.pageTemplate) smugglePageTemplates "page_template"
  let downloadExt ← normalizeOptionalExtension builder.downloadExt
  let downloadName ← normalizeOptionalText unicode builder.downloadName "download_name" 120
  let title ← normalizeOptionalText unicode builder.title "title" 120
  let message ← normalizeOptionalText unicode builder.message "message" 280
  let ctaLabel ← normalizeOptionalText unicode builder.ctaLabel "cta_label" 80
  let mimeType ← normalizeMimeType (some builder.mimeType)
  checkDelay builder.delayMs
  let normalized :=
    { builder with
      downloadExt := downloadExt, downloadName := downloadName, title := title
      message := message, ctaLabel := ctaLabel, mimeType := mimeType }
  checkMode normalized
  return normalized

end XFerry.SmuggleRequest
