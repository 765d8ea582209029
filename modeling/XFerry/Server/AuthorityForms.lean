/-
Configured hosts, Host headers and Origin headers are compared in one canonical form.

The forms are addresses, as `ipaddress` compresses them, and names of the DNS in lower
case; in an authority an IPv6 address stands in brackets.
-/

import XFerry.Server.AuthorityParsing
import XFerry.Python.TextLemmas

namespace XFerry.Server

open Python Http List

def IsNumericChar (char : Char) : Prop := char = '.' ∨ Between '0' '9' char

instance (char : Char) : Decidable (IsNumericChar char) := by
  unfold IsNumericChar
  infer_instance

/-- Decimal digits and dots alone, as in an IPv4 address. -/
def IsNumeric (text : Text) : Prop := ∀ char ∈ text, IsNumericChar char

/-- What the source relies on of the libraries. -/
structure HostLibrary.Lawful (library : HostLibrary) : Prop where
  isDigit_ascii : ∀ char, IsAscii char → (library.isDigit char = true ↔ Between '0' '9' char)
  nfc_ascii : ∀ text, isAsciiText text = true → library.nfc text = text
  idnaEncode_ascii : ∀ text encoded, isAsciiText text = true →
    library.idnaEncode text = some encoded → encoded = text
  idnaEncode_labels : ∀ text, isAsciiText text = true →
    (∀ label ∈ text.splitOn '.', label ≠ [] ∧ label.length ≤ 63) →
    library.idnaEncode text = some text
  idnaDecode_numeric : ∀ text, IsNumeric text → library.idnaDecode text = some text
  ipAddress_compressed : ∀ text address, library.ipAddress text = some address →
    library.ipAddress address.compressed = some address
  ipAddress_begins : ∀ text address, library.ipAddress text = some address →
    text ≠ [] ∧ text.head? ≠ some '['
  ipAddress_v4 : ∀ text address, library.ipAddress text = some address →
    address.version = .v4 → IsNumeric text
  ipAddress_v6 : ∀ text address, library.ipAddress text = some address →
    address.version = .v6 → 2 ≤ HostLibrary.countOf ':' text
  ipAddress_chars : ∀ text address, library.ipAddress text = some address →
    ∀ char ∈ address.compressed, char ∈ text ∨ char ∈ "0123456789abcdef:.".toList

/-! ### Characters of names -/

variable {char : Char}

section

variable (isChar : isDnsChar char = true)
include isChar

theorem isDnsChar_cases :
    45 ≤ char.toNat ∧ char.toNat ≤ 46 ∨ 48 ≤ char.toNat ∧ char.toNat ≤ 57 ∨
      97 ≤ char.toNat ∧ char.toNat ≤ 122 := by
  unfold isDnsChar at isChar
  simp only [Bool.or_eq_true, decide_eq_true_eq] at isChar
  rcases isChar with ((letter | digit) | rfl) | rfl
  · exact .inr (.inr letter)
  · exact .inr (.inl digit)
  · exact .inl (by decide)
  · exact .inl (by decide)

theorem isAscii_of_isDnsChar : IsAscii char := by
  have range := isDnsChar_cases isChar
  unfold IsAscii
  omega

theorem toLower_of_isDnsChar : char.toLower = char := by
  have range := isDnsChar_cases isChar
  have notUpper : ¬ (char.val ≥ 'A'.val ∧ char.val ≤ 'Z'.val) := by
    intro both
    have low : 65 ≤ char.toNat := both.1
    have high : char.toNat ≤ 90 := both.2
    omega
  rw [Char.toLower, dif_neg notUpper]

theorem not_invalid_of_isDnsChar : isInvalidAuthorityChar char = false := by
  have range := isDnsChar_cases isChar
  have listed : ∀ other ∈ ",@/\\?#*".toList, other.toNat ≤ 44 ∨ other.toNat = 47 ∨
      58 ≤ other.toNat ∧ other.toNat ≤ 96 := by decide
  unfold isInvalidAuthorityChar
  rw [Bool.or_eq_false_iff, Bool.or_eq_false_iff, decide_eq_false_iff_not,
    decide_eq_false_iff_not, ← Bool.not_eq_true, contains_iff_mem]
  refine ⟨⟨by omega, by omega⟩, fun member => ?_⟩
  have elsewhere := listed char member
  omega

end

theorem isSpace_of_isDnsChar (unicode : Unicode) (isChar : isDnsChar char = true) :
    unicode.isSpace char = false := by
  have range := isDnsChar_cases isChar
  rw [← Bool.not_eq_true, unicode.isSpace_ascii char (isAscii_of_isDnsChar isChar)]
  rintro (low | high)
  · have small : char.toNat ≤ 13 := low.2
    omega
  · have small : char.toNat ≤ 32 := high.2
    omega

variable {text : Text}

theorem lower_of_ascii (unicode : Unicode) (ascii : isAsciiText text = true) :
    unicode.lower text = text.map Char.toLower := by
  have all : ∀ char ∈ text, IsAscii char := fun char member =>
    of_decide_eq_true (all_eq_true.mp ascii char member)
  have lowered := @lowerFrom_of_ascii unicode [] text all []
  rw [append_nil] at lowered
  unfold Unicode.lower
  rw [lowered, Unicode.lowerFrom, append_nil]

theorem isNumericChar_of_toLower (lowered : IsNumericChar char.toLower) : IsNumericChar char := by
  have same : char.toLower = char := by
    rw [Char.toLower]
    split
    · case _ upper =>
        exfalso
        have low : 65 ≤ char.toNat := upper.1
        have high : char.toNat ≤ 90 := upper.2
        have table : ∀ code, 65 ≤ code → code ≤ 90 → ¬ IsNumericChar (Char.ofNat code).toLower := by
          decide
        have applied := table char.toNat low high
        rw [Char.ofNat_toNat] at applied
        exact applied lowered
    · rfl
  rw [same] at lowered
  exact lowered

namespace HostLibrary

variable {library : HostLibrary}

/-! ### Names -/

/-- A name in its canonical form. -/
structure IsName (name : Text) : Prop where
  isDns : isDnsName name = true
  notNumeric : ¬ IsNumeric name

variable {name : Text}

theorem isDnsName_parts (isName : isDnsName name = true) :
    name ≠ [] ∧ name.length ≤ 253 ∧ (∀ char ∈ name, isDnsChar char = true) ∧
      ∀ label ∈ name.splitOn '.', isDnsLabel label = true := by
  unfold isDnsName at isName
  simp only [Bool.and_eq_true, decide_eq_true_eq, all_eq_true] at isName
  obtain ⟨⟨⟨nonempty, short⟩, chars⟩, labels⟩ := isName
  exact ⟨nonempty, short, chars, labels⟩

theorem isAsciiText_of_isDnsName (isName : isDnsName name = true) : isAsciiText name = true := by
  obtain ⟨_, _, chars, _⟩ := isDnsName_parts isName
  unfold isAsciiText
  rw [all_eq_true]
  exact fun char member => decide_eq_true (isAscii_of_isDnsChar (chars char member))

theorem isDnsLabel_parts {label : Text} (isLabel : isDnsLabel label = true) :
    label ≠ [] ∧ label.length ≤ 63 := by
  unfold isDnsLabel at isLabel
  simp only [Bool.and_eq_true, decide_eq_true_eq] at isLabel
  exact isLabel.1.1

section

variable (isName : isDnsName name = true)
include isName

theorem getLast?_of_isDnsName : name.getLast? ≠ some '.' := by
  intro last
  obtain ⟨_, _, _, labels⟩ := isDnsName_parts isName
  obtain ⟨front, rfl⟩ := getLast?_eq_some_iff.mp last
  have emptyLabel : [] ∈ (front ++ ['.']).splitOn '.' := by
    rw [splitOn_append_cons_self]
    exact mem_append_right _ (by decide)
  exact (isDnsLabel_parts (labels [] emptyLabel)).1 rfl

theorem not_rootTwice : "..".toList.isSuffixOf name = false := by
  rw [← Bool.not_eq_true]
  intro dots
  obtain ⟨front, same⟩ := isSuffixOf_iff_suffix.mp dots
  refine getLast?_of_isDnsName isName ?_
  rw [← same]
  exact getLast?_append_of_ne_nil front (cons_ne_nil _ _)

theorem lower_of_isDnsName : library.unicode.lower name = name := by
  obtain ⟨_, _, chars, _⟩ := isDnsName_parts isName
  rw [lower_of_ascii library.unicode (isAsciiText_of_isDnsName isName)]
  conv_rhs => rw [← map_id name]
  exact map_congr_left fun char member => toLower_of_isDnsChar (chars char member)

end

def rootless (value : Text) : Text :=
  if value.getLast? = some '.' then value.dropLast else value

/-- How a host normalises to a name. -/
structure Normalises (library : HostLibrary) (value name source encoded : Text) : Prop where
  isSource : source = library.nfc (library.unicode.lower (rootless value))
  nonempty : rootless value ≠ []
  noDot : (rootless value).getLast? ≠ some '.'
  sameScript : ¬ (isAsciiText (rootless value) = false ∧ isAsciiText source = true)
  isEncoded : library.idnaEncode source = some encoded
  isName : name = library.unicode.lower encoded
  roundTrips : library.roundTrips source name = true
  isDns : isDnsName name = true

variable {value name : Text}

theorem normalises_of_eq_some (normalized : library.normalizeDnsHost value = some name) :
    ∃ source encoded, Normalises library value name source encoded := by
  unfold normalizeDnsHost at normalized
  change (if rootless value = [] ∨ (rootless value).getLast? = some '.' then none
    else if isAsciiText (rootless value) = false ∧
        isAsciiText (library.nfc (library.unicode.lower (rootless value))) = true then none
    else _) = _ at normalized
  split at normalized
  · cases normalized
  rename_i proper
  obtain ⟨nonempty, noDot⟩ := not_or.mp proper
  split at normalized
  · cases normalized
  rename_i sameScript
  split at normalized
  · cases normalized
  rename_i encoded isEncoded
  rw [Option.ite_none_right_eq_some] at normalized
  obtain ⟨⟨roundTrips, isDns⟩, same⟩ := normalized
  cases same
  exact ⟨_, encoded, rfl, nonempty, noDot, sameScript, isEncoded, rfl, roundTrips, isDns⟩

theorem normalizeDnsHost_isDnsName
    (normalized : library.normalizeDnsHost value = some name) : isDnsName name = true := by
  obtain ⟨source, encoded, normalises⟩ := normalises_of_eq_some normalized
  exact normalises.isDns

theorem normalizeDnsHost_of_isDnsName (lawful : library.Lawful)
    (isName : isDnsName name = true) : library.normalizeDnsHost name = some name := by
  obtain ⟨nonempty, _, _, labels⟩ := isDnsName_parts isName
  have ascii := isAsciiText_of_isDnsName isName
  have noDot := getLast?_of_isDnsName isName
  have lowered := @lower_of_isDnsName library name isName
  have encoded : library.idnaEncode name = some name :=
    lawful.idnaEncode_labels name ascii fun label member => isDnsLabel_parts (labels label member)
  unfold normalizeDnsHost
  rw [if_neg noDot, if_neg (not_or.mpr ⟨nonempty, noDot⟩), lowered, lawful.nfc_ascii name ascii,
    if_neg (fun both => by rw [ascii] at both; cases both.1), encoded]
  dsimp only
  rw [lowered, if_pos]
  refine ⟨?_, isName⟩
  unfold roundTrips
  rw [ascii, Bool.true_or]

theorem isDigitsAndDots_of_isNumeric (lawful : library.Lawful)
    (numeric : IsNumeric text) (digits : text.filter (· ≠ '.') ≠ []) :
    library.isDigitsAndDots text = true := by
  unfold isDigitsAndDots
  rw [Bool.and_eq_true, decide_eq_true_eq, all_eq_true]
  refine ⟨digits, fun char member => ?_⟩
  obtain ⟨inText, notDot⟩ := mem_filter.mp member
  have digit : Between '0' '9' char := (numeric char inText).resolve_left (of_decide_eq_true notDot)
  have ascii : IsAscii char := by
    have high : char.toNat ≤ 57 := digit.2
    unfold IsAscii
    omega
  exact (lawful.isDigit_ascii char ascii).mpr digit

theorem not_isDigitsAndDots (lawful : library.Lawful) (isName : IsName name) :
    library.isDigitsAndDots name = false := by
  obtain ⟨_, _, chars, _⟩ := isDnsName_parts isName.isDns
  rw [← Bool.not_eq_true]
  intro allDigits
  unfold isDigitsAndDots at allDigits
  rw [Bool.and_eq_true, all_eq_true] at allDigits
  refine isName.notNumeric fun char member => ?_
  by_cases isDot : char = '.'
  · exact .inl isDot
  have inDigits : char ∈ name.filter (· ≠ '.') := mem_filter.mpr ⟨member, decide_eq_true isDot⟩
  exact .inr ((lawful.isDigit_ascii char (isAscii_of_isDnsChar (chars char member))).mp
    (allDigits.2 char inDigits))

theorem isNumeric_of_rootless {value : Text} (numeric : IsNumeric (rootless value)) :
    IsNumeric value := by
  unfold rootless at numeric
  split at numeric
  · case _ last =>
      obtain ⟨front, rfl⟩ := getLast?_eq_some_iff.mp last
      rw [dropLast_concat] at numeric
      intro char member
      rcases mem_append.mp member with inFront | isDot
      · exact numeric char inFront
      · exact .inl (mem_singleton.mp isDot)
  · exact numeric

theorem mem_of_mem_rootless {value : Text} (member : char ∈ rootless value) : char ∈ value := by
  unfold rootless at member
  split at member
  · exact mem_of_mem_dropLast member
  · exact member

theorem isAscii_toLower (ascii : IsAscii char) : IsAscii char.toLower := by
  have table : ∀ code, code < 128 → IsAscii (Char.ofNat code).toLower := by decide
  have applied := table char.toNat ascii
  rw [Char.ofNat_toNat] at applied
  exact applied

theorem isAsciiText_lower {unicode : Unicode} (ascii : isAsciiText text = true) :
    isAsciiText (unicode.lower text) = true := by
  rw [lower_of_ascii unicode ascii]
  unfold isAsciiText at ascii ⊢
  rw [all_map, all_eq_true]
  intro char member
  exact decide_eq_true (isAscii_toLower (of_decide_eq_true (all_eq_true.mp ascii char member)))

theorem isNumeric_of_lower {unicode : Unicode} (ascii : isAsciiText text = true)
    (numeric : IsNumeric (unicode.lower text)) : IsNumeric text := by
  rw [lower_of_ascii unicode ascii] at numeric
  intro char member
  exact isNumericChar_of_toLower (numeric _ (mem_map_of_mem member))

theorem normalizeDnsHost_notNumeric (lawful : library.Lawful)
    (notDigits : library.isDigitsAndDots value = false)
    (normalized : library.normalizeDnsHost value = some name) : ¬ IsNumeric name := by
  intro numeric
  obtain ⟨source, encoded, normalises⟩ := normalises_of_eq_some normalized
  have ascii := isAsciiText_of_isDnsName normalises.isDns
  by_cases asciiSource : isAsciiText source = true
  · -- a name in ASCII differs from the host in case and the last dot only
    have asciiHost : isAsciiText (rootless value) = true := by
      by_contra other
      exact normalises.sameScript ⟨Bool.eq_false_iff.mpr other, asciiSource⟩
    have isSource : source = library.unicode.lower (rootless value) := by
      rw [normalises.isSource, lawful.nfc_ascii _ (isAsciiText_lower asciiHost)]
    rw [normalises.isName, lawful.idnaEncode_ascii source encoded asciiSource normalises.isEncoded]
      at numeric
    have numericSource := isNumeric_of_lower asciiSource numeric
    rw [isSource] at numericSource
    have numericHost := isNumeric_of_rootless (isNumeric_of_lower asciiHost numericSource)
    have last : (rootless value).getLast normalises.nonempty ∈ value.filter (· ≠ '.') := by
      refine mem_filter.mpr ⟨mem_of_mem_rootless (getLast_mem _), decide_eq_true ?_⟩
      intro isDot
      refine normalises.noDot ?_
      rw [getLast?_eq_some_getLast normalises.nonempty, isDot]
    rw [isDigitsAndDots_of_isNumeric lawful numericHost (ne_nil_of_mem last)] at notDigits
    cases notDigits
  · -- a name outside ASCII would be the numeric text itself
    have trip := normalises.roundTrips
    unfold roundTrips at trip
    rw [Bool.eq_false_iff.mpr asciiSource, Bool.false_or, decide_eq_true_eq,
      lawful.idnaDecode_numeric name numeric, Option.map_some, lower_of_isDnsName normalises.isDns,
      lawful.nfc_ascii name ascii] at trip
    rw [← Option.some.inj trip] at asciiSource
    exact asciiSource ascii

/-! ### Canonical forms -/

inductive IsCanonical (library : HostLibrary) (allowWildcard : Bool) (form : Text) : Prop where
  | address (address : IpAddress) (isAddress : library.ipAddress form = some address)
      (same : address.compressed = form)
      (specified : ¬ (allowWildcard = false ∧ address.isUnspecified = true))
      (valid : ∀ char ∈ form, isInvalidAuthorityChar char = false)
  | name (isName : IsName form)

theorem ipAddress_of_isName (lawful : library.Lawful) (isName : IsName name) :
    library.ipAddress name = none := by
  obtain ⟨_, _, chars, _⟩ := isDnsName_parts isName.isDns
  cases found : library.ipAddress name with
  | none => rfl
  | some address =>
    exfalso
    cases version : address.version with
    | v4 => exact isName.notNumeric (lawful.ipAddress_v4 name address found version)
    | v6 =>
      have colons := lawful.ipAddress_v6 name address found version
      have member : ':' ∈ name := count_pos_iff.mp (by unfold countOf at colons; omega)
      have isChar := chars ':' member
      revert isChar
      decide

variable {address : IpAddress}

theorem valid_compressed (lawful : library.Lawful) (found : library.ipAddress text = some address)
    (valid : ∀ char ∈ text, isInvalidAuthorityChar char = false) :
    ∀ char ∈ address.compressed, isInvalidAuthorityChar char = false := by
  intro char member
  rcases lawful.ipAddress_chars text address found char member with inText | ofAddress
  · exact valid char inText
  have table : ∀ other ∈ "0123456789abcdef:.".toList, isInvalidAuthorityChar other = false := by
    decide
  exact table char ofAddress

variable {allowWildcard : Bool}

theorem isCanonical_of_address (lawful : library.Lawful)
    (found : library.ipAddress text = some address)
    (specified : ¬ (allowWildcard = false ∧ address.isUnspecified = true))
    (valid : ∀ char ∈ text, isInvalidAuthorityChar char = false) :
    IsCanonical library allowWildcard address.compressed :=
  .address address (lawful.ipAddress_compressed text address found) rfl specified
    (valid_compressed lawful found valid)

inductive ReadsHost (library : HostLibrary) (allowWildcard : Bool) (candidate form : Text) : Prop
    where
  | address (address : IpAddress) (isAddress : library.ipAddress candidate = some address)
      (specified : ¬ (allowWildcard = false ∧ address.isUnspecified = true))
      (same : form = address.compressed)
  | name (notAddress : library.ipAddress candidate = none)
      (noColon : candidate.contains ':' = false)
      (notDigits : library.isDigitsAndDots candidate = false)
      (oneRoot : "..".toList.isSuffixOf candidate = false)
      (normalized : library.normalizeDnsHost candidate = some form)

structure Configures (library : HostLibrary) (allowWildcard : Bool) (value candidate form : Text) :
    Prop where
  nonempty : library.unicode.strip value ≠ []
  valid : ∀ char ∈ library.unicode.strip value, isInvalidAuthorityChar char = false
  isCandidate : unbracketed (library.unicode.strip value) = some candidate
  reads : ReadsHost library allowWildcard candidate form

variable {value form : Text} {field : String}

theorem configures_of_eq_ok
    (canonical : library.canonicalConfigHost value field allowWildcard = .ok form) :
    ∃ candidate, Configures library allowWildcard value candidate form := by
  unfold canonicalConfigHost at canonical
  dsimp only at canonical
  split at canonical
  · cases canonical
  rename_i proper
  obtain ⟨nonempty, noInvalid⟩ := not_or.mp proper
  have valid : ∀ char ∈ library.unicode.strip value, isInvalidAuthorityChar char = false := by
    intro char member
    by_contra invalid
    exact noInvalid (any_eq_true.mpr ⟨char, member, Bool.not_eq_false _ ▸ invalid⟩)
  split at canonical
  · cases canonical
  rename_i candidate isCandidate
  refine ⟨candidate, nonempty, valid, isCandidate, ?_⟩
  split at canonical
  · case _ address isAddress =>
      split at canonical
      · cases canonical
      rename_i specified
      cases canonical
      exact .address address isAddress specified rfl
  rename_i notAddress
  split at canonical
  · cases canonical
  rename_i plain
  obtain ⟨noColon, oneRoot⟩ := not_or.mp plain
  split at canonical
  · cases canonical
  rename_i notDigits
  split at canonical
  · cases canonical
  rename_i name normalized
  cases canonical
  exact .name notAddress (Bool.eq_false_iff.mpr noColon)
    (Bool.eq_false_iff.mpr notDigits) (Bool.eq_false_iff.mpr oneRoot)
    normalized

theorem mem_unbracketed {stripped candidate : Text}
    (isCandidate : unbracketed stripped = some candidate)
    (member : char ∈ candidate) : char ∈ stripped := by
  unfold unbracketed at isCandidate
  split at isCandidate
  · split at isCandidate
    · cases isCandidate
    · cases isCandidate
      exact mem_of_mem_drop (mem_of_mem_dropLast member)
  · cases isCandidate
    exact member

theorem isCanonical_of_configured (lawful : library.Lawful)
    (canonical : library.canonicalConfigHost value field allowWildcard = .ok form) :
    IsCanonical library allowWildcard form := by
  obtain ⟨candidate, configures⟩ := configures_of_eq_ok canonical
  cases configures.reads with
  | address address isAddress specified same =>
    rw [same]
    refine isCanonical_of_address lawful isAddress specified fun char member => ?_
    exact configures.valid char (mem_unbracketed configures.isCandidate member)
  | name notAddress noColon notDigits oneRoot normalized =>
    exact .name
      { isDns := normalizeDnsHost_isDnsName normalized
        notNumeric := normalizeDnsHost_notNumeric lawful notDigits normalized }

theorem unbracketed_of_head {text : Text} (plain : text.head? ≠ some '[') :
    unbracketed text = some text := if_neg plain

theorem canonicalConfigHost_of_isCanonical (lawful : library.Lawful) {form : Text}
    (isCanonical : IsCanonical library allowWildcard form)
    (stripped : library.unicode.strip form = form) (field : String) :
    library.canonicalConfigHost form field allowWildcard = .ok form := by
  unfold canonicalConfigHost
  rw [stripped]
  cases isCanonical with
  | address address isAddress same specified valid =>
    obtain ⟨nonempty, head⟩ := lawful.ipAddress_begins form address isAddress
    have proper : ¬ (form = [] ∨ form.any isInvalidAuthorityChar = true) := by
      rintro (empty | invalid)
      · exact nonempty empty
      obtain ⟨char, member, isInvalid⟩ := any_eq_true.mp invalid
      rw [valid char member] at isInvalid
      cases isInvalid
    rw [if_neg proper, unbracketed_of_head head]
    dsimp only
    rw [isAddress]
    dsimp only
    rw [if_neg specified, same]
  | name isName =>
    obtain ⟨nonempty, _, chars, _⟩ := isDnsName_parts isName.isDns
    have proper : ¬ (form = [] ∨ form.any isInvalidAuthorityChar = true) := by
      rintro (empty | invalid)
      · exact nonempty empty
      obtain ⟨char, member, isInvalid⟩ := any_eq_true.mp invalid
      rw [not_invalid_of_isDnsChar (chars char member)] at isInvalid
      cases isInvalid
    have head : form.head? ≠ some '[' := by
      intro bracket
      have isChar := chars '[' (mem_of_head? bracket)
      revert isChar
      decide
    have plain : ¬ (form.contains ':' = true ∨ "..".toList.isSuffixOf form = true) := by
      rintro (colon | dots)
      · have isChar := chars ':' (contains_iff_mem.mp colon)
        revert isChar
        decide
      · rw [not_rootTwice isName.isDns] at dots
        cases dots
    rw [if_neg proper, unbracketed_of_head head]
    dsimp only
    rw [ipAddress_of_isName lawful isName]
    rw [if_neg plain, not_isDigitsAndDots lawful isName, if_neg Bool.false_ne_true,
      normalizeDnsHost_of_isDnsName lawful isName.isDns]

/-! ### Forms in authorities -/

def spelled (form : Text) : Text :=
  if form.contains ':' = true then ['['] ++ form ++ [']'] else form

structure Unbracketed (form : Text) : Prop where
  noOpening : '[' ∉ form
  noClosing : ']' ∉ form

theorem unbracketed_of_isName (isName : IsName name) : Unbracketed name := by
  obtain ⟨_, _, chars, _⟩ := isDnsName_parts isName.isDns
  exact ⟨fun member => absurd (chars '[' member) (by decide),
    fun member => absurd (chars ']' member) (by decide)⟩

theorem strip_bracketed (form : Text) :
    library.unicode.strip (['['] ++ form ++ [']']) = ['['] ++ form ++ [']'] := by
  have opening : library.unicode.isSpace '[' = false := by
    rw [← Bool.not_eq_true, library.unicode.isSpace_ascii '[' (by decide)]
    decide
  have closing : library.unicode.isSpace ']' = false := by
    rw [← Bool.not_eq_true, library.unicode.isSpace_ascii ']' (by decide)]
    decide
  unfold Unicode.strip trim
  rw [append_assoc, singleton_append,
    dropWhile_cons_of_neg (by rw [opening]; exact Bool.false_ne_true), ← singleton_append,
    ← append_assoc, reverse_append, reverse_singleton, singleton_append,
    dropWhile_cons_of_neg (by rw [closing]; exact Bool.false_ne_true), ← singleton_append,
    reverse_append, reverse_reverse, reverse_singleton]

theorem parseBracketed_of_address {literal : Text}
    (isAddress : library.ipAddress literal = some address) (isV6 : address.version = .v6)
    (plain : Unbracketed literal) :
    library.parseBracketed (['['] ++ literal ++ [']']) =
      some { host := address.compressed, port := none } := by
  have value : ['['] ++ literal ++ [']'] = '[' :: (literal ++ [']']) := by
    rw [append_assoc, singleton_append]
  have closes : ('[' :: (literal ++ [']'])).contains ']' = true := by
    rw [contains_iff_mem]
    exact mem_cons_of_mem _ (mem_append_right _ (mem_singleton_self _))
  have oneOpening : countOf '[' ('[' :: (literal ++ [']'])) = 1 := by
    unfold countOf
    rw [count_cons_self, count_append, count_eq_zero_of_not_mem plain.noOpening]
    rfl
  have oneClosing : countOf ']' ('[' :: (literal ++ [']'])) = 1 := by
    unfold countOf
    rw [count_cons_of_ne (by decide), count_append, count_eq_zero_of_not_mem plain.noClosing]
    rfl
  have notClosing : ∀ char ∈ literal, decide (char ≠ ']') = true := fun char member =>
    decide_eq_true fun isClosing => plain.noClosing (isClosing ▸ member)
  have taken : (literal ++ [']']).takeWhile (fun char => decide (char ≠ ']')) = literal := by
    rw [takeWhile_append_of_pos notClosing, takeWhile_cons_of_neg (by decide), append_nil]
  have suffix :
      ('[' :: (literal ++ [']'])).dropWhile (fun char => decide (char ≠ ']')) = [']'] := by
    rw [dropWhile_cons_of_pos (by decide), dropWhile_append_of_pos notClosing,
      dropWhile_cons_of_neg (by decide)]
  unfold parseBracketed
  rw [value, closes, oneOpening, oneClosing, if_neg (by decide)]
  dsimp only
  have dropped : ('[' :: (literal ++ [']'])).drop 1 = literal ++ [']'] := rfl
  rw [suffix, dropped, taken, isAddress]
  change (if address.version ≠ .v6 then none else withPort address.compressed none) = _
  rw [if_neg (not_not.mpr isV6)]
  rfl

theorem withPort_none {host : Text} : withPort host none = some { host := host, port := none } :=
  rfl

theorem any_invalid_eq_false (valid : ∀ char ∈ text, isInvalidAuthorityChar char = false) :
    ¬ text.any isInvalidAuthorityChar = true := by
  intro invalid
  obtain ⟨char, member, isInvalid⟩ := any_eq_true.mp invalid
  rw [valid char member] at isInvalid
  cases isInvalid

theorem parseRequestAuthority_bracketed {literal : Text}
    (isAddress : library.ipAddress literal = some address) (isV6 : address.version = .v6)
    (plain : Unbracketed literal) (valid : ∀ char ∈ literal, isInvalidAuthorityChar char = false) :
    library.parseRequestAuthority (['['] ++ literal ++ [']']) =
      some { host := address.compressed, port := none } := by
  have proper : ¬ (['['] ++ literal ++ [']'] = [] ∨
      ['['] ++ literal ++ [']'] ≠ library.unicode.strip (['['] ++ literal ++ [']']) ∨
      (['['] ++ literal ++ [']']).any isInvalidAuthorityChar = true) := by
    rintro (empty | padded | invalid)
    · cases empty
    · exact padded (strip_bracketed literal).symm
    · refine any_invalid_eq_false ?_ invalid
      intro char member
      rcases mem_append.mp member with front | closing
      · rcases mem_append.mp front with opening | inLiteral
        · rw [mem_singleton.mp opening]
          decide
        · exact valid char inLiteral
      · rw [mem_singleton.mp closing]
        decide
  have opens : (['['] ++ literal ++ [']']).head? = some '[' := rfl
  unfold parseRequestAuthority
  rw [if_neg proper, if_pos opens]
  exact parseBracketed_of_address isAddress isV6 plain

theorem parseNamed_plain {value : Text} (plain : Unbracketed value) (noColon : ':' ∉ value)
    (nonempty : value ≠ []) :
    library.parseNamed value =
      match library.ipAddress value with
      | some address =>
        if address.version ≠ .v4 then none else withPort address.compressed none
      | none =>
        if library.isDigitsAndDots value = true ∨ "..".toList.isSuffixOf value = true then none
        else (library.normalizeDnsHost value).bind fun host => withPort host none := by
  have notColon : ∀ char ∈ value, decide (char ≠ ':') = true := fun char member =>
    decide_eq_true fun isColon => noColon (isColon ▸ member)
  have host : value.takeWhile (fun char => decide (char ≠ ':')) = value :=
    takeWhile_eq_self_iff.mpr notColon
  have accepted : ¬ (value.contains '[' = true ∨ value.contains ']' = true ∨
      1 < countOf ':' value) := by
    rw [contains_iff_mem, contains_iff_mem]
    rintro (opening | closing | colons)
    · exact plain.noOpening opening
    · exact plain.noClosing closing
    · unfold countOf at colons
      rw [count_eq_zero_of_not_mem noColon] at colons
      exact absurd colons (by decide)
  have noPort : ¬ value.contains ':' = true := fun colon =>
    noColon (contains_iff_mem.mp colon)
  unfold parseNamed
  rw [if_neg accepted]
  rw [host, if_neg nonempty, if_neg noPort]
  cases library.ipAddress value with
  | some address => rfl
  | none =>
    dsimp only
    split
    · rfl
    · cases library.normalizeDnsHost value with
      | none | some => rfl

structure PlainHost (library : HostLibrary) (value : Text) : Prop where
  nonempty : value ≠ []
  stripped : library.unicode.strip value = value
  valid : ∀ char ∈ value, isInvalidAuthorityChar char = false
  unbracketed : Unbracketed value
  noColon : ':' ∉ value

theorem PlainHost.parse {value : Text} (plain : PlainHost library value) :
    library.parseRequestAuthority value = library.parseNamed value := by
  have proper : ¬ (value = [] ∨ value ≠ library.unicode.strip value ∨
      value.any isInvalidAuthorityChar = true) := by
    rintro (empty | padded | invalid)
    · exact plain.nonempty empty
    · exact padded plain.stripped.symm
    · exact any_invalid_eq_false plain.valid invalid
  have head : value.head? ≠ some '[' := fun bracket =>
    plain.unbracketed.noOpening (mem_of_head? bracket)
  unfold parseRequestAuthority
  rw [if_neg proper, if_neg head]

theorem PlainHost.parse_address {value : Text} (plain : PlainHost library value)
    (isAddress : library.ipAddress value = some address)
    (isV4 : address.version = .v4) :
    library.parseRequestAuthority value = some { host := address.compressed, port := none } := by
  rw [plain.parse, parseNamed_plain plain.unbracketed plain.noColon plain.nonempty, isAddress]
  dsimp only
  rw [if_neg (not_not.mpr isV4), withPort_none]

theorem PlainHost.parse_name (plain : PlainHost library value)
    (notAddress : library.ipAddress value = none)
    (notDigits : library.isDigitsAndDots value = false)
    (oneRoot : "..".toList.isSuffixOf value = false)
    (normalized : library.normalizeDnsHost value = some name) :
    library.parseRequestAuthority value = some { host := name, port := none } := by
  have notRejected : ¬ (library.isDigitsAndDots value = true ∨
      "..".toList.isSuffixOf value = true) := by
    rw [notDigits, oneRoot]
    decide
  rw [plain.parse, parseNamed_plain plain.unbracketed plain.noColon plain.nonempty, notAddress]
  rw [if_neg notRejected, normalized]
  rfl

theorem no_colon_of_numeric (numeric : IsNumeric text) : ':' ∉ text :=
  fun member => absurd (numeric ':' member) (by decide)

theorem colon_of_v6 (lawful : library.Lawful)
    (isAddress : library.ipAddress text = some address) (isV6 : address.version = .v6) :
    ':' ∈ text := by
  have colons := lawful.ipAddress_v6 text address isAddress isV6
  unfold countOf at colons
  exact count_pos_iff.mp (by omega)

theorem isDnsChar_of_numeric (numeric : IsNumericChar char) : isDnsChar char = true := by
  unfold isDnsChar
  rcases numeric with isDot | digit
  · simp [isDot]
  · simp [digit]

theorem plainHost_of_dnsChars {value : Text} (nonempty : value ≠ [])
    (chars : ∀ char ∈ value, isDnsChar char = true) : PlainHost library value where
  nonempty := nonempty
  stripped := trim_eq_self fun char member =>
    isSpace_of_isDnsChar library.unicode (chars char member)
  valid := fun char member => not_invalid_of_isDnsChar (chars char member)
  unbracketed :=
    ⟨fun member => absurd (chars '[' member) (by decide),
      fun member => absurd (chars ']' member) (by decide)⟩
  noColon := fun member => absurd (chars ':' member) (by decide)

theorem parseRequestAuthority_spelled (lawful : library.Lawful) {form : Text}
    (isCanonical : IsCanonical library allowWildcard form)
    (plain : Unbracketed form) :
    library.parseRequestAuthority (spelled form) = some { host := form, port := none } := by
  have spelled_plain (noColon : ':' ∉ form) : spelled form = form :=
    if_neg fun colon => noColon (contains_iff_mem.mp colon)
  cases isCanonical with
  | address address isAddress same specified valid =>
    obtain ⟨nonempty, head⟩ := lawful.ipAddress_begins form address isAddress
    cases version : address.version with
    | v6 =>
      have hasColon := contains_iff_mem.mpr (colon_of_v6 lawful isAddress version)
      have parsed := parseRequestAuthority_bracketed isAddress version plain valid
      rw [same] at parsed
      unfold spelled
      rw [if_pos hasColon]
      exact parsed
    | v4 =>
      have numeric := lawful.ipAddress_v4 form address isAddress version
      have plainHost : PlainHost library form :=
        plainHost_of_dnsChars nonempty fun char member =>
          isDnsChar_of_numeric (numeric char member)
      rw [spelled_plain plainHost.noColon, plainHost.parse_address isAddress version, same]
  | name isName =>
    obtain ⟨nonempty, _, chars, _⟩ := isDnsName_parts isName.isDns
    have plainHost : PlainHost library form := plainHost_of_dnsChars nonempty chars
    rw [spelled_plain plainHost.noColon]
    exact plainHost.parse_name (ipAddress_of_isName lawful isName)
      (not_isDigitsAndDots lawful isName) (not_rootTwice isName.isDns)
      (normalizeDnsHost_of_isDnsName lawful isName.isDns)

/-! ### Hosts that both sides accept -/

structure Accepts (library : HostLibrary) (value : Text) (authority : RequestAuthority) : Prop where
  nonempty : value ≠ []
  stripped : library.unicode.strip value = value
  valid : ∀ char ∈ value, isInvalidAuthorityChar char = false
  parsed : if value.head? = some '[' then library.parseBracketed value = some authority
    else library.parseNamed value = some authority

theorem accepts_of_eq_some {value : Text} {authority : RequestAuthority}
    (parsed : library.parseRequestAuthority value = some authority) :
    Accepts library value authority := by
  unfold parseRequestAuthority at parsed
  split at parsed
  · cases parsed
  rename_i proper
  obtain ⟨nonempty, others⟩ := not_or.mp proper
  obtain ⟨stripped, noInvalid⟩ := not_or.mp others
  refine ⟨nonempty, (not_not.mp stripped).symm, fun char member => ?_, ?_⟩
  · by_contra invalid
    exact noInvalid (any_eq_true.mpr ⟨char, member, Bool.not_eq_false _ ▸ invalid⟩)
  · split
    · case _ opens =>
        rw [if_pos opens] at parsed
        exact parsed
    rename_i plain
    rw [if_neg plain] at parsed
    exact parsed

theorem withPort_host {host : Text} {portText : Option Text} {authority : RequestAuthority}
    (built : withPort host portText = some authority) : authority.host = host := by
  cases portText with
  | none =>
    cases built
    rfl
  | some text =>
    obtain ⟨port, _, rfl⟩ := Option.map_eq_some_iff.mp built
    rfl

structure ReadsBrackets (library : HostLibrary) (value : Text) (authority : RequestAuthority)
    (literal suffix : Text) (address : IpAddress) : Prop where
  isValue : value = '[' :: (literal ++ ']' :: suffix)
  plain : Unbracketed literal
  isAddress : library.ipAddress literal = some address
  isV6 : address.version = .v6
  built : withPort address.compressed (if suffix = [] then none else some (suffix.drop 1)) =
    some authority

theorem dropWhile_of_mem {text : Text} (member : ']' ∈ text) :
    ∃ rest, text.dropWhile (fun char => decide (char ≠ ']')) = ']' :: rest := by
  induction text with
  | nil => exact absurd member not_mem_nil
  | cons char rest ih =>
    by_cases closes : char = ']'
    · rw [closes, dropWhile_cons_of_neg (by decide)]
      exact ⟨rest, rfl⟩
    have kept : decide (char ≠ ']') = true := decide_eq_true closes
    obtain ⟨after, isAfter⟩ := ih ((mem_cons.mp member).resolve_left fun same => closes same.symm)
    refine ⟨after, ?_⟩
    rw [← isAfter]
    exact dropWhile_cons_of_pos kept

theorem readsBrackets_of_eq_some {value : Text} {authority : RequestAuthority}
    (opens : value.head? = some '[') (parsed : library.parseBracketed value = some authority) :
    ∃ literal suffix address, ReadsBrackets library value authority literal suffix address := by
  obtain ⟨body, rfl⟩ : ∃ body, value = '[' :: body := by
    cases value with
    | nil => cases opens
    | cons first body =>
      cases Option.some.inj opens
      exact ⟨body, rfl⟩
  unfold parseBracketed at parsed
  split at parsed
  · cases parsed
  rename_i single
  obtain ⟨closes, counts⟩ := not_or.mp single
  obtain ⟨oneOpening, oneClosing⟩ := not_or.mp counts
  rw [not_not] at oneOpening oneClosing
  have closing : ']' ∈ body := by
    rw [Bool.not_eq_false, contains_iff_mem] at closes
    exact (mem_cons.mp closes).resolve_left (by decide)
  obtain ⟨suffix, isSuffix⟩ := dropWhile_of_mem closing
  have literalSplit : body.takeWhile (fun char => decide (char ≠ ']')) ++ ']' :: suffix = body := by
    rw [← isSuffix]
    exact takeWhile_append_dropWhile
  obtain ⟨literal, isLiteral⟩ : ∃ literal,
      body.takeWhile (fun char => decide (char ≠ ']')) = literal := ⟨_, rfl⟩
  have dropped : ('[' :: body).dropWhile (fun char => decide (char ≠ ']')) = ']' :: suffix := by
    rw [dropWhile_cons_of_pos (by decide), isSuffix]
  have isBody : ('[' :: body).drop 1 = body := rfl
  dsimp only at parsed
  rw [dropped, isBody, isLiteral] at parsed
  rw [isLiteral] at literalSplit
  have plain : Unbracketed literal := by
    constructor
    · intro opening
      unfold countOf at oneOpening
      rw [count_cons_self, ← literalSplit, count_append] at oneOpening
      have more := count_pos_iff.mpr opening
      omega
    · intro closes
      rw [← isLiteral] at closes
      have kept := mem_takeWhile_imp closes
      exact of_decide_eq_true kept rfl
  split at parsed
  · cases parsed
  split at parsed
  · cases parsed
  rename_i address isAddress
  split at parsed
  · cases parsed
  rename_i isV6
  refine ⟨literal, suffix, address, ?_, plain, isAddress, not_not.mp isV6, parsed⟩
  rw [literalSplit]

structure ReadsNamed (library : HostLibrary) (value : Text) (authority : RequestAuthority)
    (hostText : Text) (portText : Option Text) (host : Text) : Prop where
  isHost : hostText = value.takeWhile (fun char => decide (char ≠ ':'))
  hasPort : value.contains ':' = portText.isSome
  plain : Unbracketed value
  oneColon : countOf ':' value ≤ 1
  reads : (∃ address, library.ipAddress hostText = some address ∧ address.version = .v4 ∧
      host = address.compressed) ∨
    (library.ipAddress hostText = none ∧ library.isDigitsAndDots hostText = false ∧
      library.normalizeDnsHost hostText = some host)
  built : withPort host portText = some authority

theorem readsNamed_of_eq_some {value : Text} {authority : RequestAuthority}
    (parsed : library.parseNamed value = some authority) :
    ∃ hostText portText host, ReadsNamed library value authority hostText portText host := by
  unfold parseNamed at parsed
  split at parsed
  · cases parsed
  rename_i accepted
  obtain ⟨noOpening, others⟩ := not_or.mp accepted
  obtain ⟨noClosing, oneColon⟩ := not_or.mp others
  rw [contains_iff_mem] at noOpening noClosing
  dsimp only at parsed
  obtain ⟨portText, isPort⟩ : ∃ portText, (if value.contains ':' = true then
      some ((value.dropWhile fun char => decide (char ≠ ':')).drop 1) else none) = portText :=
    ⟨_, rfl⟩
  have hasPort : value.contains ':' = portText.isSome := by
    rw [← isPort]
    cases value.contains ':' with
    | true | false => rfl
  rw [isPort] at parsed
  have assemble {host : Text} := @ReadsNamed.mk library value authority
    (value.takeWhile fun char => decide (char ≠ ':')) portText host rfl hasPort
    ⟨noOpening, noClosing⟩ (Nat.not_lt.mp oneColon)
  split at parsed
  · cases parsed
  split at parsed
  · case _ address isAddress =>
      split at parsed
      · cases parsed
      · case _ isV4 =>
          exact ⟨_, _, _, assemble (.inl ⟨address, isAddress, not_not.mp isV4, rfl⟩) parsed⟩
  rename_i notAddress
  split at parsed
  · cases parsed
  rename_i rejected
  obtain ⟨notDigits, _⟩ := not_or.mp rejected
  split at parsed
  · cases parsed
  rename_i host normalized
  exact ⟨_, _, _, assemble (.inr ⟨notAddress, Bool.eq_false_iff.mpr notDigits, normalized⟩) parsed⟩

theorem isCanonical_of_request (lawful : library.Lawful) {value : Text}
    {authority : RequestAuthority}
    (parsed : library.parseRequestAuthority value = some authority) :
    IsCanonical library true authority.host ∧ Unbracketed authority.host := by
  have accepts := accepts_of_eq_some parsed
  have wildcard (address : IpAddress) : ¬ (true = false ∧ address.isUnspecified = true) :=
    fun both => absurd both.1 Bool.true_eq_false.mp
  have compressedPlain {text : Text} {address : IpAddress}
      (found : library.ipAddress text = some address) (plain : Unbracketed text) :
      Unbracketed address.compressed := by
    constructor
    · intro opening
      rcases lawful.ipAddress_chars text address found '[' opening with inText | ofAddress
      · exact plain.noOpening inText
      · exact absurd ofAddress (by decide)
    · intro closing
      rcases lawful.ipAddress_chars text address found ']' closing with inText | ofAddress
      · exact plain.noClosing inText
      · exact absurd ofAddress (by decide)
  have parsedSide := accepts.parsed
  split at parsedSide
  · case _ opens =>
      obtain ⟨literal, suffix, address, reads⟩ := readsBrackets_of_eq_some opens parsedSide
      rw [withPort_host reads.built]
      refine ⟨?_, compressedPlain reads.isAddress reads.plain⟩
      refine isCanonical_of_address lawful reads.isAddress (wildcard address) ?_
      intro char member
      refine accepts.valid char ?_
      rw [reads.isValue]
      exact mem_cons_of_mem _ (mem_append_left _ member)
  · obtain ⟨hostText, portText, host, reads⟩ := readsNamed_of_eq_some parsedSide
    rw [withPort_host reads.built]
    have inValue {char : Char} (member : char ∈ hostText) : char ∈ value := by
      rw [reads.isHost] at member
      exact (takeWhile_sublist _).subset member
    rcases reads.reads with ⟨address, isAddress, _, rfl⟩ | ⟨notAddress, notDigits, normalized⟩
    · have plain : Unbracketed hostText :=
        ⟨fun opening => reads.plain.noOpening (inValue opening),
          fun closing => reads.plain.noClosing (inValue closing)⟩
      refine ⟨?_, compressedPlain isAddress plain⟩
      exact isCanonical_of_address lawful isAddress (wildcard address)
        fun char member => accepts.valid char (inValue member)
    · have isName : IsName host :=
        { isDns := normalizeDnsHost_isDnsName normalized
          notNumeric := normalizeDnsHost_notNumeric lawful notDigits normalized }
      exact ⟨.name isName, unbracketed_of_isName isName⟩

/-- The syntax of hosts in authorities: brackets stand around addresses with colons, and
nowhere else. -/
structure InAuthoritySyntax (library : HostLibrary) (value : Text) : Prop where
  stripped : library.unicode.strip value = value
  brackets : value.head? = some '[' ∧ ':' ∈ value ∨ Unbracketed value ∧ ':' ∉ value

theorem unbracketed_parts {value candidate : Text}
    (isCandidate : unbracketed value = some candidate) (opens : value.head? = some '[') :
    value = ['['] ++ candidate ++ [']'] ∧ Unbracketed candidate := by
  unfold unbracketed at isCandidate
  rw [if_pos opens] at isCandidate
  split at isCandidate
  · cases isCandidate
  rename_i single
  obtain ⟨closes, counts⟩ := not_or.mp single
  obtain ⟨oneOpening, oneClosing⟩ := not_or.mp counts
  rw [not_not] at closes oneOpening oneClosing
  obtain ⟨front, rfl⟩ := getLast?_eq_some_iff.mp closes
  cases front with
  | nil => cases opens
  | cons first literal =>
    cases Option.some.inj opens
    have isLiteral : candidate = literal := by
      rw [← Option.some.inj isCandidate]
      exact dropLast_concat
    subst isLiteral
    unfold countOf at oneOpening oneClosing
    rw [cons_append, count_cons_self, count_append] at oneOpening
    rw [count_append, count_singleton_self, count_cons_of_ne (by decide)]
      at oneClosing
    have noOpening : candidate.count '[' = 0 := by omega
    have noClosing : candidate.count ']' = 0 := by omega
    exact ⟨rfl, count_eq_zero.mp noOpening, count_eq_zero.mp noClosing⟩

theorem parseRequestAuthority_of_configured (lawful : library.Lawful)
    (canonical : library.canonicalConfigHost value field allowWildcard = .ok form)
    (syntactic : InAuthoritySyntax library value) :
    library.parseRequestAuthority value = some { host := form, port := none } := by
  obtain ⟨candidate, configures⟩ := configures_of_eq_ok canonical
  have isCandidate := configures.isCandidate
  have nonempty := configures.nonempty
  have valid := configures.valid
  rw [syntactic.stripped] at isCandidate nonempty valid
  rcases syntactic.brackets with ⟨opens, colon⟩ | ⟨plain, noColon⟩
  · obtain ⟨isValue, plain⟩ := unbracketed_parts isCandidate opens
    have inCandidate : ':' ∈ candidate := by
      rw [isValue] at colon
      rcases mem_append.mp colon with front | closing
      · exact (mem_append.mp front).resolve_left (by decide)
      · exact absurd closing (by decide)
    cases configures.reads with
    | address address isAddress specified same =>
      cases version : address.version with
      | v4 =>
        have numeric := lawful.ipAddress_v4 candidate address isAddress version
        exact absurd inCandidate (no_colon_of_numeric numeric)
      | v6 =>
        rw [isValue, same]
        exact parseRequestAuthority_bracketed isAddress version plain fun char member =>
          valid char (mem_unbracketed isCandidate member)
    | name notAddress noColon notDigits oneRoot normalized =>
      rw [contains_iff_mem.mpr inCandidate] at noColon
      cases noColon
  · have plainHost : PlainHost library value :=
      ⟨nonempty, syntactic.stripped, valid, plain, noColon⟩
    have head : value.head? ≠ some '[' := fun bracket =>
      plain.noOpening (mem_of_head? bracket)
    rw [unbracketed_of_head head] at isCandidate
    cases isCandidate
    cases configures.reads with
    | address address isAddress specified same =>
      cases version : address.version with
      | v4 =>
        rw [same]
        exact plainHost.parse_address isAddress version
      | v6 => exact absurd (colon_of_v6 lawful isAddress version) noColon
    | name notAddress _ notDigits oneRoot normalized =>
      exact plainHost.parse_name notAddress notDigits oneRoot normalized

theorem inAuthoritySyntax_of_parsed (lawful : library.Lawful) {authority : RequestAuthority}
    (canonical : library.canonicalConfigHost value field allowWildcard = .ok form)
    (parsed : library.parseRequestAuthority value = some authority) :
    InAuthoritySyntax library value := by
  obtain ⟨candidate, configures⟩ := configures_of_eq_ok canonical
  have accepts := accepts_of_eq_some parsed
  refine ⟨accepts.stripped, ?_⟩
  have isCandidate := configures.isCandidate
  rw [accepts.stripped] at isCandidate
  have parsedSide := accepts.parsed
  split at parsedSide
  · case _ opens =>
      obtain ⟨literal, suffix, address, reads⟩ := readsBrackets_of_eq_some opens parsedSide
      have inLiteral := colon_of_v6 lawful reads.isAddress reads.isV6
      refine .inl ⟨opens, ?_⟩
      rw [reads.isValue]
      exact mem_cons_of_mem _ (mem_append_left _ inLiteral)
  rename_i plain
  rw [unbracketed_of_head plain] at isCandidate
  cases isCandidate
  obtain ⟨hostText, portText, host, reads⟩ := readsNamed_of_eq_some parsedSide
  refine .inr ⟨reads.plain, fun colon => ?_⟩
  cases configures.reads with
  | address other isOther specified same =>
    cases version : other.version with
    | v4 => exact no_colon_of_numeric (lawful.ipAddress_v4 value other isOther version) colon
    | v6 =>
      have colons := lawful.ipAddress_v6 value other isOther version
      have one := reads.oneColon
      omega
  | name notAddress noColon notDigits oneRoot normalized =>
    rw [contains_iff_mem.mpr colon] at noColon
    cases noColon

theorem forms_agree (lawful : library.Lawful) {authority : RequestAuthority}
    (canonical : library.canonicalConfigHost value field allowWildcard = .ok form)
    (parsed : library.parseRequestAuthority value = some authority) :
    authority = { host := form, port := none } := by
  have syntactic := inAuthoritySyntax_of_parsed lawful canonical parsed
  rw [parseRequestAuthority_of_configured lawful canonical syntactic] at parsed
  exact (Option.some.inj parsed).symm

end HostLibrary

end XFerry.Server
