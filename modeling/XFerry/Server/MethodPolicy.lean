/-
The methods a server handles: the built-in ones, and those of its plugins.

Handlers are found under the upper case of a method.  The policies of plugin methods
are found under the method as the request spells it.
-/

import XFerry.Http.Request
import XFerry.OrderedDict
import XFerry.Python.TextLemmas

namespace XFerry.Server

open Python Http List

/-- `str.upper()` of ASCII text. -/
def upper (text : Text) : Text := text.map Char.toUpper

structure CoreMethodSpec where
  method : Text
  handlerName : String
  mutating : Bool
deriving DecidableEq

def coreMethod (method handlerName : String) (mutating : Bool) : CoreMethodSpec :=
  { method := method.toList, handlerName := handlerName, mutating := mutating }

def coreMethodSpecs : List CoreMethodSpec :=
  [ coreMethod "GET" "handle_get" false,
    coreMethod "HEAD" "handle_head" false,
    coreMethod "POST" "handle_post" true,
    coreMethod "PUT" "handle_none" true,
    coreMethod "PATCH" "handle_patch" true,
    coreMethod "DELETE" "handle_delete" true,
    coreMethod "OPTIONS" "handle_options" false,
    coreMethod "FETCH" "handle_fetch" false,
    coreMethod "INFO" "handle_info" false,
    coreMethod "PING" "handle_ping" false,
    coreMethod "NONE" "handle_none" true,
    coreMethod "NOTE" "handle_note" true,
    coreMethod "SMUGGLE" "handle_smuggle" true ]

def coreMethodNamed (name : Text) : Option CoreMethodSpec :=
  coreMethodSpecs.find? fun spec => spec.method = name

def coreMethodSpec (unicode : Unicode) (method : Text) : Option CoreMethodSpec :=
  coreMethodNamed (upper (unicode.strip method))

/-- `_METHOD_RE` of a plugin method name. -/
def isPluginMethodName (name : Text) : Bool :=
  match name with
  | [] => false
  | first :: rest =>
    decide (Between 'A' 'Z' first) &&
      rest.all fun char =>
        decide (Between 'A' 'Z' char) || decide (Between '0' '9' char) || char = '_' || char = '-'

structure PluginMethodSpec where
  method : Text
  mutating : Bool
  isName : isPluginMethodName method = true
deriving DecidableEq

inductive MethodHandler where
  | core (spec : CoreMethodSpec)
  | plugin (spec : PluginMethodSpec)
deriving DecidableEq

def MethodHandler.mutating : MethodHandler → Bool
  | .core spec => spec.mutating
  | .plugin spec => spec.mutating

/-- `method_handlers` and `_plugin_method_policies`. -/
structure MethodTables where
  handlers : OrderedDict Text MethodHandler
  policies : OrderedDict Text PluginMethodSpec

namespace MethodTables

def register (tables : MethodTables) (method : Text) (handler : MethodHandler) : MethodTables :=
  { tables with handlers := tables.handlers.assign (upper method) handler }

def getHandler (tables : MethodTables) (method : Text) : Option MethodHandler :=
  tables.handlers.lookup (upper method)

/-- `build_method_handlers`. -/
def core : MethodTables :=
  coreMethodSpecs.foldl (fun tables spec => tables.register spec.method (.core spec))
    { handlers := .empty, policies := .empty }

def addPlugin (tables : MethodTables) (spec : PluginMethodSpec) : MethodTables :=
  let registered := tables.register spec.method (.plugin spec)
  { registered with policies := registered.policies.assign spec.method spec }

/-- One turn of `_register_plugins`. -/
def registerPlugin (overrideCore : Bool) (tables : MethodTables) (spec : PluginMethodSpec) :
    Except String MethodTables :=
  if (coreMethodNamed spec.method).isSome ∧ overrideCore = false then
    .error ("plugin method " ++ String.ofList spec.method ++ " would override a core method")
  else .ok (tables.addPlugin spec)

def build (overrideCore : Bool) (plugins : List PluginMethodSpec) : Except String MethodTables :=
  plugins.foldlM (registerPlugin overrideCore) core

/-- What `_is_browser_protected_mutation` makes of a method. -/
def isProtected (unicode : Unicode) (tables : MethodTables) (method : Text) : Bool :=
  match tables.policies.lookup method with
  | some policy => policy.mutating
  | none =>
    match coreMethodSpec unicode method with
    | some spec => (tables.getHandler method).isSome && spec.mutating
    | none => false

end MethodTables

open MethodTables

structure RegisteredMethods where
  overrideCore : Bool
  plugins : List PluginMethodSpec
  tables : MethodTables
  built : build overrideCore plugins = .ok tables

theorem toUpper_of_not_lower {char : Char} (notLower : ¬ Between 'a' 'z' char) :
    char.toUpper = char := by
  have outside : ¬ (char.val ≥ 'a'.val ∧ char.val ≤ 'z'.val) := notLower
  rw [Char.toUpper, dif_neg outside]

theorem upper_of_isPluginMethodName {name : Text} (isName : isPluginMethodName name = true) :
    upper name = name := by
  have kept : ∀ char ∈ name, char.toUpper = char := by
    intro char member
    apply toUpper_of_not_lower
    rintro ⟨low, _⟩
    have lower : 97 ≤ char.toNat := low
    cases name with
    | nil => cases member
    | cons first rest =>
      rw [isPluginMethodName, Bool.and_eq_true, decide_eq_true_iff, all_eq_true] at isName
      rcases mem_cons.mp member with rfl | inRest
      · have high : char.toNat ≤ 90 := isName.1.2
        omega
      have kind := isName.2 char inRest
      simp only [Bool.or_eq_true, decide_eq_true_iff] at kind
      rcases kind with ((letter | digit) | line) | dash
      · have high : char.toNat ≤ 90 := letter.2
        omega
      · have high : char.toNat ≤ 57 := digit.2
        omega
      · rw [line] at lower
        revert lower
        decide
      · rw [dash] at lower
        revert lower
        decide
  rw [upper, map_congr_left kept, map_id']

/-- The two tables have the plugin methods under the same keys, and the other handlers
are the built-in ones. -/
structure MethodTables.Consistent (tables : MethodTables) : Prop where
  policy_upper : ∀ method spec, tables.policies.lookup method = some spec → upper method = method
  plugin_iff : ∀ method spec, tables.handlers.lookup method = some (.plugin spec) ↔
    tables.policies.lookup method = some spec
  core_named : ∀ method spec, tables.handlers.lookup method = some (.core spec) →
    coreMethodNamed method = some spec

variable {handler : MethodHandler}

theorem exists_spec_of_foldl {specs : List CoreMethodSpec} {tables : MethodTables} {method : Text}
    (found : (specs.foldl (fun tables spec => tables.register spec.method (.core spec))
      tables).handlers.lookup method = some handler) :
    tables.handlers.lookup method = some handler ∨
      ∃ spec ∈ specs, upper spec.method = method ∧ handler = .core spec := by
  induction specs generalizing tables with
  | nil => exact .inl found
  | cons first rest ih =>
    rcases ih found with earlier | ⟨spec, member, key, same⟩
    · simp only [register, OrderedDict.lookup_assign] at earlier
      split at earlier
      · case isTrue here =>
        cases earlier
        exact .inr ⟨first, mem_cons_self .., here.symm, rfl⟩
      · exact .inl earlier
    · exact .inr ⟨spec, mem_cons_of_mem _ member, key, same⟩

theorem policies_foldl (specs : List CoreMethodSpec) (tables : MethodTables) :
    (specs.foldl (fun tables spec => tables.register spec.method (.core spec))
      tables).policies = tables.policies := by
  induction specs generalizing tables with
  | nil => rfl
  | cons first rest ih =>
    rw [foldl_cons, ih]
    rfl

theorem MethodTables.core_consistent : core.Consistent := by
  have noPolicies : core.policies = .empty := policies_foldl coreMethodSpecs _
  have handlers : ∀ method handler, core.handlers.lookup method = some handler →
      ∃ spec ∈ coreMethodSpecs, upper spec.method = method ∧ handler = .core spec := by
    intro method handler found
    rcases exists_spec_of_foldl found with earlier | fromSpec
    · cases earlier
    · exact fromSpec
  have named : ∀ spec ∈ coreMethodSpecs, coreMethodNamed (upper spec.method) = some spec := by
    decide +kernel
  constructor
  case policy_upper =>
    intro method spec found
    rw [noPolicies] at found
    cases found
  case plugin_iff =>
    intro method spec
    constructor
    · intro found
      obtain ⟨other, _, _, same⟩ := handlers method _ found
      cases same
    · intro found
      rw [noPolicies] at found
      cases found
  case core_named =>
    intro method spec found
    obtain ⟨other, member, rfl, same⟩ := handlers method _ found
    cases same
    exact named spec member

theorem MethodTables.Consistent.registerPlugin {tables next : MethodTables}
    (consistent : tables.Consistent) {overrideCore : Bool} {spec : PluginMethodSpec}
    (registered : tables.registerPlugin overrideCore spec = .ok next) : next.Consistent := by
  have key := upper_of_isPluginMethodName spec.isName
  unfold MethodTables.registerPlugin at registered
  split at registered
  · cases registered
  · cases registered
    constructor
    case policy_upper =>
      intro method other found
      simp only [addPlugin, register, OrderedDict.lookup_assign] at found
      split at found
      · case isTrue same =>
        rw [same]
        exact key
      · exact consistent.policy_upper method other found
    case plugin_iff =>
      intro method other
      simp only [addPlugin, register, OrderedDict.lookup_assign, key]
      split
      · simp
      · exact consistent.plugin_iff method other
    case core_named =>
      intro method other found
      simp only [addPlugin, register, OrderedDict.lookup_assign, key] at found
      split at found
      · cases found
      · exact consistent.core_named method other found

theorem MethodTables.consistent_of_build {tables : MethodTables} {overrideCore : Bool}
    {plugins : List PluginMethodSpec} (built : build overrideCore plugins = .ok tables) :
    tables.Consistent := by
  have fromConsistent : ∀ (plugins : List PluginMethodSpec) (start : MethodTables),
      start.Consistent → plugins.foldlM (registerPlugin overrideCore) start =
        .ok tables → tables.Consistent := by
    intro plugins
    induction plugins with
    | nil =>
      intro start consistent done
      cases done
      exact consistent
    | cons plugin rest ih =>
      intro start consistent built
      rw [foldlM_cons] at built
      cases registered : start.registerPlugin overrideCore plugin with
      | error message =>
        rw [registered] at built
        cases built
      | ok next =>
        rw [registered] at built
        exact ih next (consistent.registerPlugin registered) built
  exact fromConsistent plugins core core_consistent built

theorem RegisteredMethods.consistent (registered : RegisteredMethods) :
    registered.tables.Consistent :=
  consistent_of_build registered.built

/-- The lookup of the policy finds what the lookup of the handler finds, or the built-in
method of that name is protected anyway. -/
def MethodTables.PolicyCovers (tables : MethodTables) (method : Text) : Prop :=
  ∀ spec, tables.policies.lookup (upper method) = some spec → spec.mutating = true →
    method = upper method ∨ (coreMethodNamed (upper method)).any CoreMethodSpec.mutating = true

instance (tables : MethodTables) (method : Text) : Decidable (tables.PolicyCovers method) :=
  match found : tables.policies.lookup (upper method) with
  | none => isTrue (by intro spec here; rw [found] at here; cases here)
  | some spec =>
    if covered : spec.mutating = true → method = upper method ∨
        (coreMethodNamed (upper method)).any CoreMethodSpec.mutating = true then
      isTrue (by intro other here; rw [found] at here; cases here; exact covered)
    else isFalse fun all => covered (all spec found)

theorem isAscii_of_isMethodChar {char : Char} (methodChar : isMethodChar char = true) :
    IsAscii char := by
  simp only [isMethodChar, Bool.or_eq_true, decide_eq_true_iff] at methodChar
  rcases methodChar with ((symbol | digit) | upperCase) | lowerCase
  · have listed : ∀ other ∈ "!#$%&'*+-.^_`|~".toList, IsAscii other := by decide
    exact listed char (contains_iff_mem.mp symbol)
  · have high : char.toNat ≤ 57 := digit.2
    unfold IsAscii
    omega
  · have high : char.toNat ≤ 90 := upperCase.2
    unfold IsAscii
    omega
  · have high : char.toNat ≤ 122 := lowerCase.2
    unfold IsAscii
    omega

theorem strip_of_isMethod {unicode : Unicode} {method : Text} (token : isMethod method = true) :
    unicode.strip method = method := by
  apply trim_eq_self
  intro char member
  rw [isMethod, Bool.and_eq_true, all_eq_true] at token
  have methodChar := token.2 char member
  have ascii := isAscii_of_isMethodChar methodChar
  have visible : ∀ code < 128, isMethodChar (Char.ofNat code) = true →
      ¬ (Between '\t' '\r' (Char.ofNat code) ∨ Between '\x1c' ' ' (Char.ofNat code)) := by
    decide +kernel
  have here := visible char.toNat ascii
  rw [Char.ofNat_toNat] at here
  rw [Bool.eq_false_iff]
  intro space
  exact here methodChar ((unicode.isSpace_ascii char ascii).mp space)

variable {unicode : Unicode} {tables : MethodTables} {method : Text}

theorem policy_eq_none (consistent : tables.Consistent) (other : method ≠ upper method) :
    tables.policies.lookup method = none := by
  cases found : tables.policies.lookup method with
  | none => rfl
  | some spec => exact absurd (consistent.policy_upper method spec found).symm other

theorem isProtected_of_core {spec : CoreMethodSpec} (token : isMethod method = true)
    (noPolicy : tables.policies.lookup method = none)
    (named : coreMethodNamed (upper method) = some spec) :
    tables.isProtected unicode method = ((tables.getHandler method).isSome && spec.mutating) := by
  rw [isProtected, noPolicy, coreMethodSpec, strip_of_isMethod token, named]

theorem isProtected_of_covers (consistent : tables.Consistent) (token : isMethod method = true)
    (covers : tables.PolicyCovers method)
    (found : tables.getHandler method = some handler) (mutating : handler.mutating = true) :
    tables.isProtected unicode method = true := by
  by_cases spelled : method = upper method
  · cases handler with
    | core spec =>
      have named := consistent.core_named _ spec found
      have noPolicy : tables.policies.lookup method = none := by
        cases policy : tables.policies.lookup method with
        | none => rfl
        | some plugin =>
          rw [spelled, ← consistent.plugin_iff] at policy
          rw [getHandler, policy] at found
          cases found
      rw [isProtected_of_core token noPolicy named, found]
      exact mutating
    | plugin spec =>
      have policy := (consistent.plugin_iff _ spec).mp found
      rw [← spelled] at policy
      rw [isProtected, policy]
      exact mutating
  · have noPolicy := policy_eq_none consistent spelled
    cases handler with
    | core spec =>
      rw [isProtected_of_core token noPolicy (consistent.core_named _ spec found), found]
      exact mutating
    | plugin spec =>
      have policy := (consistent.plugin_iff _ spec).mp found
      rcases covers spec policy mutating with same | coreMutating
      · exact absurd same spelled
      · cases named : coreMethodNamed (upper method) with
        | none =>
          rw [named] at coreMutating
          cases coreMutating
        | some core =>
          rw [named] at coreMutating
          rw [isProtected_of_core token noPolicy named, found]
          exact coreMutating

theorem not_isProtected_of_not_covers (consistent : tables.Consistent)
    (token : isMethod method = true) (uncovered : ¬ tables.PolicyCovers method) :
    ∃ spec, tables.getHandler method = some (.plugin spec) ∧ spec.mutating = true ∧
      tables.isProtected unicode method = false := by
  simp only [MethodTables.PolicyCovers, not_forall, not_or] at uncovered
  obtain ⟨spec, policy, mutating, spelled, coreMutating⟩ := uncovered
  have found : tables.getHandler method = some (.plugin spec) :=
    (consistent.plugin_iff _ spec).mpr policy
  have noPolicy := policy_eq_none consistent spelled
  refine ⟨spec, found, mutating, ?_⟩
  cases named : coreMethodNamed (upper method) with
  | none => rw [isProtected, noPolicy, coreMethodSpec, strip_of_isMethod token, named]
  | some core =>
    rw [isProtected_of_core token noPolicy named, found]
    simpa [named] using coreMutating

end XFerry.Server
