/-
The hosts that a configured server answers for, and the origins that are its own.
-/

import XFerry.Server.AuthorityForms
import XFerry.Ensures

namespace XFerry.Server.HostLibrary

open Python Http List

variable {library : HostLibrary}

/-- A form that the configuration lists; blank entries count for nothing. -/
structure Listed (library : HostLibrary) (values : List Text) (value form : Text) : Prop where
  member : value ∈ values
  notBlank : library.unicode.strip value ≠ []
  canonical : library.canonicalConfigHost value "allowed host" false = .ok form

theorem Listed.cons {values : List Text} {first value form : Text}
    (listed : Listed library values value form) : Listed library (first :: values) value form :=
  { listed with member := mem_cons_of_mem first listed.member }

variable {values normalized hosts : List Text}

theorem mem_normalizeAllowedHostsFrom
    (built : library.normalizeAllowedHostsFrom normalized values = .ok hosts) (form : Text) :
    form ∈ hosts ↔ form ∈ normalized ∨ ∃ value, Listed library values value form := by
  induction values generalizing normalized with
  | nil =>
    cases built
    constructor
    · exact .inl
    · rintro (known | ⟨value, listed⟩)
      · exact known
      · exact absurd listed.member not_mem_nil
  | cons first rest ih =>
    unfold normalizeAllowedHostsFrom at built
    split at built
    · case _ blank =>
        rw [ih built]
        constructor
        · rintro (known | ⟨value, listed⟩)
          · exact .inl known
          · exact .inr ⟨value, listed.cons⟩
        · rintro (known | ⟨value, listed⟩)
          · exact .inl known
          rcases mem_cons.mp listed.member with rfl | member
          · exact absurd blank listed.notBlank
          · exact .inr ⟨value, { listed with member := member }⟩
    · case _ notBlank =>
        obtain ⟨host, canonical, remaining⟩ := Ensures.bind_eq_ok.mp built
        have known : form ∈ (if normalized.contains host = true then normalized
            else normalized ++ [host]) ↔ form ∈ normalized ∨ form = host := by
          split
          · case _ seen =>
              rw [contains_iff_mem] at seen
              constructor
              · exact .inl
              · rintro (member | rfl)
                · exact member
                · exact seen
          · rw [mem_append, mem_singleton]
        rw [ih remaining, known, or_assoc]
        refine or_congr_right ⟨?_, ?_⟩
        · rintro (rfl | ⟨value, listed⟩)
          · exact ⟨first, mem_cons_self, notBlank, canonical⟩
          · exact ⟨value, listed.cons⟩
        · rintro ⟨value, listed⟩
          rcases mem_cons.mp listed.member with rfl | member
          · have same := listed.canonical
            rw [canonical] at same
            exact .inl (Except.ok.inj same).symm
          · exact .inr ⟨value, { listed with member := member }⟩

variable {values hosts : List Text}

theorem mem_normalizeAllowedHosts
    (built : library.normalizeAllowedHosts values = .ok hosts) (form : Text) :
    form ∈ hosts ↔ ∃ value, Listed library values value form := by
  rw [mem_normalizeAllowedHostsFrom built, or_iff_right not_mem_nil]

theorem listed_of_normalizeAllowedHostsFrom
    (built : library.normalizeAllowedHostsFrom normalized values = .ok hosts) {value : Text}
    (member : value ∈ values) (notBlank : library.unicode.strip value ≠ []) :
    ∃ form, Listed library values value form := by
  induction values generalizing normalized with
  | nil => exact absurd member not_mem_nil
  | cons first rest ih =>
    unfold normalizeAllowedHostsFrom at built
    split at built
    · case _ blank =>
        rcases mem_cons.mp member with rfl | later
        · exact absurd blank notBlank
        · obtain ⟨form, listed⟩ := ih built later
          exact ⟨form, listed.cons⟩
    · obtain ⟨host, canonical, remaining⟩ := Ensures.bind_eq_ok.mp built
      rcases mem_cons.mp member with rfl | later
      · exact ⟨host, mem_cons_self, notBlank, canonical⟩
      · obtain ⟨form, listed⟩ := ih remaining later
        exact ⟨form, listed.cons⟩

/-- No host is configured: every entry is blank. -/
def NoneListed (library : HostLibrary) (values : List Text) : Prop :=
  ∀ value ∈ values, library.unicode.strip value = []

theorem normalizeAllowedHosts_eq_nil_iff
    (built : library.normalizeAllowedHosts values = .ok hosts) :
    hosts = [] ↔ NoneListed library values := by
  constructor
  · intro none value member
    by_contra notBlank
    obtain ⟨form, listed⟩ := listed_of_normalizeAllowedHostsFrom built member notBlank
    have inHosts := (mem_normalizeAllowedHosts built form).mpr ⟨value, listed⟩
    rw [none] at inHosts
    exact absurd inHosts not_mem_nil
  · intro blank
    refine eq_nil_iff_forall_not_mem.mpr fun form member => ?_
    obtain ⟨value, listed⟩ := (mem_normalizeAllowedHosts built form).mp member
    exact listed.notBlank (blank value listed.member)

/-- The canonical forms that a configuration stands for: the hosts it lists, or else the
host it binds to, and the domain of the certificate. -/
inductive Configured (library : HostLibrary) (config : RequestAdmissionConfig) (form : Text) :
    Prop where
  | listed (value : Text) (isListed : Listed library config.allowedHosts value form)
  | bound (none : NoneListed library config.allowedHosts)
      (canonical : library.canonicalConfigHost config.bindHost "bind host" true = .ok form)
      (elsewhere : library.bindsLoopback form = false)
  | certified (domain : Text) (isDomain : config.certificateDomain = some domain)
      (nonempty : domain ≠ [])
      (canonical : library.canonicalConfigHost domain "certificate domain" false = .ok form)

/-- A loopback form, where no host is listed and the server binds to the machine itself. -/
structure PermittedLoopback (library : HostLibrary) (config : RequestAdmissionConfig)
    (form : Text) : Prop where
  none : NoneListed library config.allowedHosts
  bound : ∃ bindHost, library.canonicalConfigHost config.bindHost "bind host" true = .ok bindHost ∧
    library.bindsLoopback bindHost = true
  loopback : form = "localhost".toList ∨ library.isLoopbackIp form = true

theorem configured_eq_ok {α : Type} {host : Except InvalidHost α} {value : α} :
    configured host = .ok value ↔ host = .ok value := by
  cases host with
  | ok found =>
    constructor
    all_goals
      intro same
      cases same
      rfl
  | error failure =>
    constructor
    · intro same
      cases same
    · intro same
      cases same

/-- What a policy was built of. -/
structure BuiltFrom (library : HostLibrary) (config : RequestAdmissionConfig)
    (policy : RequestAdmissionPolicy) (listedHosts : List Text) (bindHost : Text) : Prop where
  normalized : library.normalizeAllowedHosts config.allowedHosts = .ok listedHosts
  isBind : library.canonicalConfigHost config.bindHost "bind host" true = .ok bindHost
  isAllowed : library.withCertificate listedHosts
    (if listedHosts = [] ∧ library.bindsLoopback bindHost = false then [bindHost]
      else listedHosts) config.certificateDomain = .ok policy.allowedHosts
  isLoopback : policy.allowLoopback = (decide (listedHosts = []) && library.bindsLoopback bindHost)

variable {config : RequestAdmissionConfig} {policy : RequestAdmissionPolicy}

theorem builtFrom_of_eq_ok (built : library.policyOf config = .ok policy) :
    ∃ listedHosts bindHost, BuiltFrom library config policy listedHosts bindHost := by
  unfold policyOf at built
  split at built
  · cases built
  obtain ⟨listedHosts, normalized, rest⟩ := Ensures.bind_eq_ok.mp built
  obtain ⟨bindHost, isBind, after⟩ := Ensures.bind_eq_ok.mp rest
  obtain ⟨allowedHosts, isAllowed, same⟩ := Ensures.bind_eq_ok.mp after
  cases same
  exact ⟨listedHosts, bindHost, configured_eq_ok.mp normalized, configured_eq_ok.mp isBind,
    isAllowed, rfl⟩

theorem mem_withCertificate {listedHosts hosts allowed : List Text} {domain : Option Text}
    (added : library.withCertificate listedHosts hosts domain = .ok allowed) (form : Text) :
    form ∈ allowed ↔ form ∈ hosts ∨ ∃ name, domain = some name ∧ name ≠ [] ∧
      library.canonicalConfigHost name "certificate domain" false = .ok form := by
  have without (absent : ∀ name, domain = some name → name = []) (same : hosts = allowed) :
      form ∈ allowed ↔ form ∈ hosts ∨ ∃ name, domain = some name ∧ name ≠ [] ∧
        library.canonicalConfigHost name "certificate domain" false = .ok form := by
    rw [same, or_iff_left]
    rintro ⟨name, isName, nonempty, _⟩
    exact nonempty (absent name isName)
  cases domain with
  | none =>
    refine without ?_ (Except.ok.inj added)
    intro name isName
    cases isName
  | some name =>
    cases name with
    | nil =>
      refine without ?_ (Except.ok.inj added)
      intro name isName
      cases isName
      rfl
    | cons first rest =>
      obtain ⟨certificateHost, isCertificate, after⟩ := Ensures.bind_eq_ok.mp added
      rw [configured_eq_ok] at isCertificate
      have certified : (∃ name, some (first :: rest) = some name ∧ name ≠ [] ∧
          library.canonicalConfigHost name "certificate domain" false = .ok form) ↔
          form = certificateHost := by
        constructor
        · rintro ⟨name, isName, _, canonical⟩
          cases isName
          rw [isCertificate] at canonical
          exact (Except.ok.inj canonical).symm
        · rintro rfl
          exact ⟨first :: rest, rfl, cons_ne_nil _ _, isCertificate⟩
      rw [certified]
      split at after
      · split at after
        · case _ present =>
            cases after
            constructor
            · exact .inl
            · rintro (member | rfl)
              · exact member
              · exact contains_iff_mem.mp present
        · cases after
      · cases after
        rw [mem_append, mem_singleton]

section

variable (built : library.policyOf config = .ok policy)
include built

theorem mem_allowedHosts (form : Text) :
    form ∈ policy.allowedHosts ↔ Configured library config form := by
  obtain ⟨listedHosts, bindHost, from_⟩ := builtFrom_of_eq_ok built
  have noneListed := normalizeAllowedHosts_eq_nil_iff from_.normalized
  have listedIff := mem_normalizeAllowedHosts from_.normalized form
  have explicit : listedHosts ≠ [] →
      (if listedHosts = [] ∧ library.bindsLoopback bindHost = false then [bindHost]
        else listedHosts) = listedHosts := fun some => if_neg fun both => some both.1
  rw [mem_withCertificate from_.isAllowed]
  constructor
  · rintro (member | ⟨domain, isDomain, nonempty, canonical⟩)
    · split at member
      · case _ bound =>
          rw [mem_singleton.mp member]
          exact .bound (noneListed.mp bound.1) from_.isBind bound.2
      · obtain ⟨value, listed⟩ := listedIff.mp member
        exact .listed value listed
    · exact .certified domain isDomain nonempty canonical
  · intro isConfigured
    cases isConfigured with
    | listed value listed =>
      have member := listedIff.mpr ⟨value, listed⟩
      refine .inl ?_
      rw [explicit (ne_nil_of_mem member)]
      exact member
    | bound none canonical elsewhere =>
      refine .inl ?_
      have same := from_.isBind
      rw [canonical] at same
      cases same
      rw [if_pos ⟨noneListed.mpr none, elsewhere⟩]
      exact mem_singleton_self _
    | certified domain isDomain nonempty canonical =>
      exact .inr ⟨domain, isDomain, nonempty, canonical⟩

theorem hostIsAllowed_iff (form : Text) :
    policy.hostIsAllowed library.authorities form = true ↔
      Configured library config form ∨ PermittedLoopback library config form := by
  obtain ⟨listedHosts, bindHost, from_⟩ := builtFrom_of_eq_ok built
  have noneListed := normalizeAllowedHosts_eq_nil_iff from_.normalized
  unfold RequestAdmissionPolicy.hostIsAllowed
  rw [Bool.or_eq_true, contains_iff_mem, mem_allowedHosts built, Bool.and_eq_true,
    from_.isLoopback, Bool.and_eq_true, decide_eq_true_eq, noneListed, Bool.or_eq_true,
    decide_eq_true_eq]
  refine or_congr_right ⟨?_, ?_⟩
  · rintro ⟨⟨none, binds⟩, loopback⟩
    exact ⟨none, ⟨bindHost, from_.isBind, binds⟩, loopback⟩
  · intro permitted
    obtain ⟨other, canonical, binds⟩ := permitted.bound
    rw [from_.isBind] at canonical
    cases canonical
    exact ⟨⟨permitted.none, binds⟩, permitted.loopback⟩

theorem admitAuthority_iff {request : HTTPRequest} {value : Text}
    {others : List Text} (isHost : request.headerValues "host" = value :: others)
    (authority : RequestAuthority) :
    policy.admitAuthority library.authorities request = .ok (some authority) ↔
      library.parseRequestAuthority value = some authority ∧
        (Configured library config authority.host ∨
          PermittedLoopback library config authority.host) := by
  have parses : library.authorities.parseRequestAuthority value =
      library.parseRequestAuthority value := rfl
  unfold RequestAdmissionPolicy.admitAuthority
  rw [isHost]
  dsimp only
  rw [parses]
  cases library.parseRequestAuthority value with
  | none =>
    constructor
    · intro admitted
      cases admitted
    · rintro ⟨parsed, _⟩
      cases parsed
  | some found =>
    dsimp only
    constructor
    · intro admitted
      split at admitted
      · case _ allowed =>
          cases admitted
          exact ⟨rfl, (hostIsAllowed_iff built _).mp allowed⟩
      · cases admitted
    · rintro ⟨same, allowed⟩
      cases same
      rw [if_pos ((hostIsAllowed_iff built _).mpr allowed)]

end

structure Origin where
  scheme : Text
  host : Text
  port : Nat

def originOf (scheme : Text) (authority : RequestAuthority) : Origin :=
  { scheme := scheme, host := authority.host, port := authority.effectivePort scheme }

def originOfText (library : HostLibrary) (text : Text) : Option Origin :=
  (library.parseHttpOrigin text).map fun parsed => originOf parsed.1 parsed.2

theorem isSameOrigin_iff (policy : RequestAdmissionPolicy) (admission : RequestAdmissionContext)
    (text : Text) :
    policy.isSameOrigin library.authorities admission text = true ↔
      ∃ authority, admission.authority = some authority ∧
        library.originOfText text = some (originOf policy.scheme authority) := by
  have parses : library.authorities.parseHttpOrigin text = library.parseHttpOrigin text := rfl
  unfold RequestAdmissionPolicy.isSameOrigin originOfText
  rw [parses]
  cases admission.authority with
  | none =>
    constructor
    · intro same
      cases same
    · rintro ⟨authority, absent, _⟩
      cases absent
  | some authority =>
    cases library.parseHttpOrigin text with
    | none =>
      constructor
      · intro same
        cases same
      · rintro ⟨other, _, absent⟩
        cases absent
    | some parsed =>
      dsimp only [Option.map_some]
      rw [Bool.and_eq_true, Bool.and_eq_true, decide_eq_true_eq, decide_eq_true_eq,
        decide_eq_true_eq]
      constructor
      · rintro ⟨⟨sameScheme, sameHost⟩, samePort⟩
        refine ⟨authority, rfl, ?_⟩
        unfold originOf
        rw [samePort, sameHost, sameScheme]
      · rintro ⟨other, isOther, same⟩
        cases isOther
        obtain ⟨sameScheme, sameHost, samePort⟩ := Origin.mk.inj (Option.some.inj same)
        exact ⟨⟨sameScheme, sameHost⟩, samePort⟩

theorem isSameOrigin_pair {admission : RequestAdmissionContext}
    {left right : Text} {authority : RequestAuthority}
    (parsed : library.parseHttpOrigin left = some (policy.scheme, authority))
    (admitted : admission.authority = some authority) :
    policy.isSameOrigin library.authorities admission right = true ↔
      library.originOfText right = library.originOfText left := by
  have ofLeft : library.originOfText left = some (originOf policy.scheme authority) := by
    unfold originOfText
    rw [parsed]
    rfl
  rw [isSameOrigin_iff, ofLeft]
  constructor
  · rintro ⟨other, isOther, same⟩
    rw [admitted] at isOther
    cases isOther
    exact same
  · intro same
    exact ⟨authority, admitted, same⟩

/-- The configuration, the Host header and the Origin header compare one form of a host. -/
structure ComparesForms (library : HostLibrary) : Prop where
  configured : ∀ value field allowWildcard form authority,
    library.canonicalConfigHost value field allowWildcard = .ok form →
    (library.parseRequestAuthority value = some authority ↔
      InAuthoritySyntax library value ∧ authority = { host := form, port := none })
  spelling : ∀ value field allowWildcard form,
    library.canonicalConfigHost value field allowWildcard = .ok form → Unbracketed form →
    library.parseRequestAuthority (spelled form) = some { host := form, port := none }
  configIdempotent : ∀ value field allowWildcard form,
    library.canonicalConfigHost value field allowWildcard = .ok form →
    library.unicode.strip form = form →
    library.canonicalConfigHost form field allowWildcard = .ok form
  requestIdempotent : ∀ value authority, library.parseRequestAuthority value = some authority →
    library.parseRequestAuthority (spelled authority.host) =
      some { host := authority.host, port := none }
  admits : ∀ config policy (request : HTTPRequest) value others authority,
    library.policyOf config = .ok policy → request.headerValues "host" = value :: others →
    (policy.admitAuthority library.authorities request = .ok (some authority) ↔
      library.parseRequestAuthority value = some authority ∧
        (Configured library config authority.host ∨
          PermittedLoopback library config authority.host))
  sameOrigin : ∀ (policy : RequestAdmissionPolicy) (admission : RequestAdmissionContext) left right
    authority, library.parseHttpOrigin left = some (policy.scheme, authority) →
    admission.authority = some authority →
    (policy.isSameOrigin library.authorities admission right = true ↔
      library.originOfText right = library.originOfText left)

theorem comparesForms (lawful : library.Lawful) : ComparesForms library where
  configured := by
    intro value field allowWildcard form authority canonical
    constructor
    · intro parsed
      exact ⟨inAuthoritySyntax_of_parsed lawful canonical parsed,
        forms_agree lawful canonical parsed⟩
    · rintro ⟨syntactic, rfl⟩
      exact parseRequestAuthority_of_configured lawful canonical syntactic
  spelling := by
    intro value field allowWildcard form canonical plain
    exact parseRequestAuthority_spelled lawful (isCanonical_of_configured lawful canonical) plain
  configIdempotent := by
    intro value field allowWildcard form canonical stripped
    exact canonicalConfigHost_of_isCanonical lawful (isCanonical_of_configured lawful canonical)
      stripped field
  requestIdempotent := by
    intro value authority parsed
    obtain ⟨isCanonical, plain⟩ := isCanonical_of_request lawful parsed
    exact parseRequestAuthority_spelled lawful isCanonical plain
  admits := by
    intro config policy request value others authority built isHost
    exact admitAuthority_iff built isHost authority
  sameOrigin := by
    intro policy admission left right authority parsed admitted
    exact isSameOrigin_pair parsed admitted

def sampleTables : Unicode :=
  { Unicode.ascii with
    isSpace := fun char => Unicode.ascii.isSpace char || char = '\u3000'
    isSpace_ascii := by
      intro char ascii
      have other : char ≠ '\u3000' := by
        rintro rfl
        exact absurd ascii (by decide)
      rw [Bool.or_eq_true, decide_eq_true_eq, or_iff_left other]
      exact Unicode.ascii.isSpace_ascii char ascii }

def sampleV6 (compressed : String) (isLoopback : Bool) : Text × IpAddress :=
  (compressed.toList,
    { version := .v6
      compressed := compressed.toList
      isUnspecified := false
      isLoopback := isLoopback })

def sampleAddresses : List (Text × IpAddress) :=
  [ sampleV6 "::1" true,
    ("0:0:0:0:0:0:0:1".toList, (sampleV6 "::1" true).2),
    sampleV6 "fe80::1%a" false,
    sampleV6 "fe80::1%a\u3000" false,
    sampleV6 "fe80::1%a]" false,
    ("127.0.0.1".toList,
      { version := .v4
        compressed := "127.0.0.1".toList
        isUnspecified := false
        isLoopback := true }) ]

def sampleUrls : List (Text × SplitUrl) :=
  [ ("https://[::1]:8443".toList,
      { scheme := "https".toList
        netloc := "[::1]:8443".toList
        path := []
        query := []
        fragment := [] }) ]

def isEncodedLabel (label : Text) : Bool := decide (label ≠ [] ∧ label.length ≤ 63)

def sampleHosts : HostLibrary :=
  { unicode := sampleTables
    isDigit := fun char => decide (Between '0' '9' char)
    nfc := id
    idnaEncode := fun text =>
      if isAsciiText text = true ∧ (text.splitOn '.').all isEncodedLabel = true then some text
      else none
    idnaDecode := fun text => if isAsciiText text = true then some text else none
    ipAddress := fun text => sampleAddresses.lookup text
    urlsplit := fun text => sampleUrls.lookup text }

theorem mem_of_sampleAddress {text : Text} {address : IpAddress}
    (found : sampleHosts.ipAddress text = some address) : (text, address) ∈ sampleAddresses := by
  obtain ⟨before, after, split, _⟩ := lookup_eq_some_iff.mp found
  rw [split]
  exact mem_append_right _ mem_cons_self

theorem sampleHosts_lawful : sampleHosts.Lawful where
  isDigit_ascii := fun char _ => decide_eq_true_iff
  nfc_ascii := fun _ _ => rfl
  idnaEncode_ascii := by
    intro text encoded _ isEncoded
    exact (Option.some.inj (Option.ite_none_right_eq_some.mp isEncoded).2).symm
  idnaEncode_labels := by
    intro text ascii labels
    refine if_pos ⟨ascii, all_eq_true.mpr fun label member => ?_⟩
    exact decide_eq_true (labels label member)
  idnaDecode_numeric := by
    intro text numeric
    refine if_pos (all_eq_true.mpr fun char member => decide_eq_true ?_)
    exact isAscii_of_isDnsChar (isDnsChar_of_numeric (numeric char member))
  ipAddress_compressed := by
    intro text address found
    have table : ∀ entry ∈ sampleAddresses,
        sampleHosts.ipAddress entry.2.compressed = some entry.2 := by decide +kernel
    exact table _ (mem_of_sampleAddress found)
  ipAddress_begins := by
    intro text address found
    have table : ∀ entry ∈ sampleAddresses, entry.1 ≠ [] ∧ entry.1.head? ≠ some '[' := by
      decide +kernel
    exact table _ (mem_of_sampleAddress found)
  ipAddress_v4 := by
    intro text address found
    have table : ∀ entry ∈ sampleAddresses, entry.2.version = .v4 →
        ∀ char ∈ entry.1, IsNumericChar char := by decide +kernel
    exact table _ (mem_of_sampleAddress found)
  ipAddress_v6 := by
    intro text address found
    have table : ∀ entry ∈ sampleAddresses, entry.2.version = .v6 → 2 ≤ countOf ':' entry.1 := by
      decide +kernel
    exact table _ (mem_of_sampleAddress found)
  ipAddress_chars := by
    intro text address found
    have table : ∀ entry ∈ sampleAddresses, ∀ char ∈ entry.2.compressed,
        char ∈ entry.1 ∨ char ∈ "0123456789abcdef:.".toList := by decide +kernel
    exact table _ (mem_of_sampleAddress found)

theorem sampleHosts_comparesForms : ComparesForms sampleHosts := comparesForms sampleHosts_lawful

/-- An address without brackets is configured and no authority; the form of one scope is
not what it is made of, and that of another cannot stand in brackets. -/
theorem bareAddress_not_compared :
    (sampleHosts.canonicalConfigHost "::1".toList "allowed host" false = .ok "::1".toList ∧
      sampleHosts.parseRequestAuthority "::1".toList = none) ∧
    (sampleHosts.canonicalConfigHost "[fe80::1%a\u3000]".toList "allowed host" false =
        .ok "fe80::1%a\u3000".toList ∧
      sampleHosts.canonicalConfigHost "fe80::1%a\u3000".toList "allowed host" false =
        .ok "fe80::1%a".toList) ∧
    (sampleHosts.canonicalConfigHost "fe80::1%a]".toList "allowed host" false =
        .ok "fe80::1%a]".toList ∧
      sampleHosts.parseRequestAuthority (spelled "fe80::1%a]".toList) = none) := by
  refine ⟨⟨rfl, ?_⟩, ⟨rfl, rfl⟩, ⟨rfl, ?_⟩⟩ <;> decide +kernel

end XFerry.Server.HostLibrary
