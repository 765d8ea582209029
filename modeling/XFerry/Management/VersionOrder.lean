/-
Release precedence as a linear order, and which versions `compare_release_versions` sorts
by it.

The grammar accepts numeric identifiers with leading zeros.  Two that are written differently
but have the same value make the comparison answer 1 in both directions.
-/

import XFerry.Management.Versions

namespace XFerry.Management

open Python List

section Sign

variable {α : Type} [LinearOrder α]

def orderSign (left right : α) : Int :=
  if left < right then -1 else if right < left then 1 else 0

theorem orderSign_of_lt {left right : α} (less : left < right) : orderSign left right = -1 :=
  if_pos less

theorem orderSign_of_gt {left right : α} (greater : right < left) : orderSign left right = 1 := by
  rw [orderSign, if_neg (lt_asymm greater), if_pos greater]

theorem orderSign_self (value : α) : orderSign value value = 0 := by
  rw [orderSign, if_neg (lt_irrefl value), if_neg (lt_irrefl value)]

theorem orderSign_swap (left right : α) : orderSign right left = -orderSign left right := by
  rcases lt_trichotomy left right with less | same | greater
  · rw [orderSign_of_lt less, orderSign_of_gt less]
    rfl
  · rw [same, orderSign_self]
    rfl
  · rw [orderSign_of_gt greater, orderSign_of_lt greater]

theorem orderSign_eq_zero {left right : α} : orderSign left right = 0 ↔ left = right := by
  constructor
  · intro isZero
    rcases lt_trichotomy left right with less | same | greater
    · rw [orderSign_of_lt less] at isZero
      cases isZero
    · exact same
    · rw [orderSign_of_gt greater] at isZero
      cases isZero
  · rintro rfl
    exact orderSign_self left

theorem orderSign_nonpos {left right : α} : orderSign left right ≤ 0 ↔ left ≤ right := by
  rcases lt_trichotomy left right with less | same | greater
  · rw [orderSign_of_lt less]
    exact ⟨fun _ => less.le, fun _ => by omega⟩
  · rw [same, orderSign_self]
    exact ⟨fun _ => le_refl right, fun _ => le_refl 0⟩
  · rw [orderSign_of_gt greater]
    exact ⟨fun never => by omega, fun never => absurd greater (not_lt.mpr never)⟩

end Sign

def numeralValue (digits : Text) : Nat := ofDigits (digits.map fun digit => digit.toNat - '0'.toNat)

abbrev Identifier := Lex (Nat ⊕ Text)

def identifierKey (identifier : Text) : Identifier :=
  if isNumericIdentifier identifier then Sum.inlₗ (numeralValue identifier)
  else Sum.inrₗ identifier

abbrev Precedence := Lex (Lex (Nat × Lex (Nat × Nat)) × WithTop (List Identifier))

def coreKey (core : Nat × Nat × Nat) : Lex (Nat × Lex (Nat × Nat)) :=
  toLex (core.1, toLex (core.2.1, core.2.2))

def prereleaseKey : Option (List Text) → WithTop (List Identifier)
  | none => ⊤
  | some identifiers => (identifiers.map identifierKey : List Identifier)

def ReleaseParts.precedence (parts : ReleaseParts) : Precedence :=
  toLex (coreKey parts.core, prereleaseKey parts.prerelease)

variable {left right : Nat × Nat × Nat}

theorem coreLess_iff : coreLess left right = true ↔ coreKey left < coreKey right := by
  simp only [coreLess, coreKey, Prod.Lex.toLex_lt_toLex, decide_eq_true_eq]

theorem coreKey_inj (same : coreKey left = coreKey right) : left = right := by
  have first := congrArg (fun key => (ofLex key).1) same
  have second := congrArg (fun key => (ofLex (ofLex key).2).1) same
  have third := congrArg (fun key => (ofLex (ofLex key).2).2) same
  exact Prod.ext first (Prod.ext second third)

def releasePrecedence (value : Text) : Precedence :=
  let withoutBuild := value.takeWhile (· ≠ '+')
  let core := withoutBuild.takeWhile (· ≠ '-')
  let prerelease :=
    match withoutBuild.dropWhile (· ≠ '-') with
    | [] => none
    | _ :: identifiers => some (identifiers.splitOn '.')
  match core.splitOn '.' with
  | [major, minor, patch] =>
    ReleaseParts.precedence
      { core := (numeralValue major, numeralValue minor, numeralValue patch)
        prerelease := prerelease }
  | _ => ReleaseParts.precedence { core := (0, 0, 0), prerelease := prerelease }

theorem decimalNumeral_eq_some {digits : Text} {value : Nat}
    (read : decimalNumeral digits = some value) : value = numeralValue digits := by
  unfold decimalNumeral at read
  split at read
  · cases read
  · exact (Option.some.inj read).symm

theorem releasePrecedence_of_parts {value : Text} {parts : ReleaseParts}
    (read : releaseParts value = some parts) : releasePrecedence value = parts.precedence := by
  unfold releaseParts at read
  dsimp only at read
  split at read
  · case h_1 major minor patch isCore =>
      unfold releasePrecedence
      dsimp only
      rw [isCore]
      cases first : decimalNumeral major with
      | none =>
        rw [first] at read
        cases read
      | some majorValue =>
        cases second : decimalNumeral minor with
        | none =>
          rw [first, second] at read
          cases read
        | some minorValue =>
          cases third : decimalNumeral patch with
          | none =>
            rw [first, second, third] at read
            cases read
          | some patchValue =>
            rw [first, second, third] at read
            cases read
            obtain rfl := decimalNumeral_eq_some first
            obtain rfl := decimalNumeral_eq_some second
            obtain rfl := decimalNumeral_eq_some third
            rfl
  · cases read

/-- Two different identifiers do not stand for one number, nor for one that is too long. -/
def SeparableIdentifiers (left right : Text) : Prop :=
  isNumericIdentifier left = true → isNumericIdentifier right = true →
    left.length ≤ maxStrDigits ∧ right.length ≤ maxStrDigits ∧
      numeralValue left ≠ numeralValue right

def Separable : List Text → List Text → Prop
  | left :: lefts, right :: rights =>
    if left = right then Separable lefts rights else SeparableIdentifiers left right
  | _, _ => True

/-- The numerals of both versions can be read, and prereleases of one release are separable. -/
def Comparable (left right : Text) : Prop :=
  ∃ leftParts rightParts, releaseParts left = some leftParts ∧
    releaseParts right = some rightParts ∧
    (leftParts.core = rightParts.core → ∀ lefts rights, leftParts.prerelease = some lefts →
      rightParts.prerelease = some rights → Separable lefts rights)

variable {left right : Text}

theorem SeparableIdentifiers.symm (separable : SeparableIdentifiers left right) :
    SeparableIdentifiers right left := fun rightNumeric leftNumeric =>
  let ⟨leftShort, rightShort, different⟩ := separable leftNumeric rightNumeric
  ⟨rightShort, leftShort, different.symm⟩

variable {lefts rights : List Text}

theorem Separable.symm (separable : Separable lefts rights) : Separable rights lefts := by
  induction lefts generalizing rights with
  | nil =>
    cases rights with
    | nil | cons => trivial
  | cons left lefts ih =>
    cases rights with
    | nil => trivial
    | cons right rights =>
      rw [Separable] at separable ⊢
      by_cases same : left = right
      · rw [if_pos same] at separable
        rw [if_pos same.symm]
        exact ih separable
      rw [if_neg same] at separable
      rw [if_neg (Ne.symm same)]
      exact separable.symm

theorem Comparable.symm (comparable : Comparable left right) : Comparable right left := by
  obtain ⟨leftParts, rightParts, isLeft, isRight, separable⟩ := comparable
  exact ⟨rightParts, leftParts, isRight, isLeft, fun same rights lefts isRights isLefts =>
    (separable same.symm lefts rights isLefts isRights).symm⟩

theorem identifierKey_numeric {identifier : Text}
    (numeric : isNumericIdentifier identifier = true) :
    identifierKey identifier = Sum.inlₗ (numeralValue identifier) := if_pos numeric

theorem identifierKey_other {identifier : Text} (other : isNumericIdentifier identifier = false) :
    identifierKey identifier = Sum.inrₗ identifier := by
  rw [identifierKey, other]
  rfl

theorem decimalNumeral_of_short {digits : Text} (short : digits.length ≤ maxStrDigits) :
    decimalNumeral digits = some (numeralValue digits) := if_neg (by omega)

theorem identifierKey_ne (different : left ≠ right)
    (separable : SeparableIdentifiers left right) : identifierKey left ≠ identifierKey right := by
  cases leftNumeric : isNumericIdentifier left with
  | true =>
    cases rightNumeric : isNumericIdentifier right with
    | true =>
      rw [identifierKey_numeric leftNumeric, identifierKey_numeric rightNumeric]
      exact fun same => (separable leftNumeric rightNumeric).2.2 (Sum.inl.inj same)
    | false =>
      rw [identifierKey_numeric leftNumeric, identifierKey_other rightNumeric]
      exact nofun
  | false =>
    cases rightNumeric : isNumericIdentifier right with
    | true =>
      rw [identifierKey_other leftNumeric, identifierKey_numeric rightNumeric]
      exact nofun
    | false =>
      rw [identifierKey_other leftNumeric, identifierKey_other rightNumeric]
      exact fun same => different (Sum.inr.inj same)

theorem compareIdentifiers_separable (different : left ≠ right)
    (separable : SeparableIdentifiers left right) :
    compareIdentifiers left right =
      some (orderSign (identifierKey left) (identifierKey right)) := by
  unfold compareIdentifiers
  cases leftNumeric : isNumericIdentifier left with
  | true =>
    cases rightNumeric : isNumericIdentifier right with
    | true =>
      obtain ⟨leftShort, rightShort, values⟩ := separable leftNumeric rightNumeric
      simp only [decimalNumeral_of_short leftShort, decimalNumeral_of_short rightShort,
        identifierKey_numeric leftNumeric, identifierKey_numeric rightNumeric]
      rcases Nat.lt_or_gt_of_ne values with less | greater
      · rw [orderSign_of_lt (Sum.Lex.inl_lt_inl_iff.mpr less)]
        exact congrArg some (if_pos less)
      · rw [orderSign_of_gt (Sum.Lex.inl_lt_inl_iff.mpr greater)]
        exact congrArg some (if_neg (Nat.lt_asymm greater))
    | false =>
      rw [identifierKey_numeric leftNumeric, identifierKey_other rightNumeric,
        orderSign_of_lt (Sum.Lex.inl_lt_inr _ _)]
  | false =>
    cases rightNumeric : isNumericIdentifier right with
    | true =>
      rw [identifierKey_other leftNumeric, identifierKey_numeric rightNumeric,
        orderSign_of_gt (Sum.Lex.inl_lt_inr _ _)]
    | false =>
      rw [identifierKey_other leftNumeric, identifierKey_other rightNumeric]
      rcases lt_or_gt_of_ne different with less | greater
      · rw [orderSign_of_lt (Sum.Lex.inr_lt_inr_iff.mpr less)]
        exact congrArg some (if_pos less)
      · rw [orderSign_of_gt (Sum.Lex.inr_lt_inr_iff.mpr greater)]
        exact congrArg some (if_neg (lt_asymm greater))

variable {order : Int}

/-- Of two numbers that are the same or too long the first counts as the greater one, if the
comparison answers at all. -/
theorem separable_of_compareIdentifiers
    (compared : compareIdentifiers left right = some order) (notGreater : order ≤ 0) :
    SeparableIdentifiers left right := by
  intro leftNumeric rightNumeric
  unfold compareIdentifiers at compared
  simp only [leftNumeric, rightNumeric] at compared
  cases first : decimalNumeral left with
  | none =>
    rw [first] at compared
    cases compared
  | some leftValue =>
    cases second : decimalNumeral right with
    | none =>
      rw [first, second] at compared
      cases compared
    | some rightValue =>
      rw [first, second] at compared
      have answer : (if leftValue < rightValue then (-1 : Int) else 1) = order :=
        Option.some.inj compared
      have less : leftValue < rightValue := by
        by_contra notLess
        omega
      have short {digits : Text} {value : Nat} (read : decimalNumeral digits = some value) :
          digits.length ≤ maxStrDigits := by
        unfold decimalNumeral at read
        split at read
        · cases read
        · omega
      rw [decimalNumeral_eq_some first, decimalNumeral_eq_some second] at less
      exact ⟨short first, short second, Nat.ne_of_lt less⟩

theorem orderSign_congr {α β : Type} [LinearOrder α] [LinearOrder β] {left right : α}
    {left' right' : β} (less : left < right ↔ left' < right')
    (greater : right < left ↔ right' < left') : orderSign left right = orderSign left' right' :=
  if_congr less rfl (if_congr greater rfl rfl)

theorem orderSign_cons_same {key : Identifier} {lefts rights : List Identifier} :
    orderSign (key :: lefts) (key :: rights) = orderSign lefts rights :=
  orderSign_congr (by simp only [cons_lt_cons_iff, lt_irrefl, true_and, false_or])
    (by simp only [cons_lt_cons_iff, lt_irrefl, true_and, false_or])

theorem orderSign_cons_of_ne {left right : Identifier} {lefts rights : List Identifier}
    (different : left ≠ right) :
    orderSign (left :: lefts) (right :: rights) = orderSign left right :=
  orderSign_congr (by simp only [cons_lt_cons_iff, different, false_and, or_false])
    (by simp only [cons_lt_cons_iff, different.symm, false_and, or_false])

theorem comparePrereleases_separable (separable : Separable lefts rights) :
    comparePrereleases lefts rights =
      some (orderSign (lefts.map identifierKey) (rights.map identifierKey)) := by
  induction lefts generalizing rights with
  | nil =>
    cases rights with
    | nil => exact congrArg some (orderSign_self _).symm
    | cons right rights => exact congrArg some (orderSign_of_lt (nil_lt_cons _ _)).symm
  | cons left lefts ih =>
    cases rights with
    | nil => exact congrArg some (orderSign_of_gt (nil_lt_cons _ _)).symm
    | cons right rights =>
      rw [Separable] at separable
      rw [comparePrereleases, map_cons, map_cons]
      by_cases same : left = right
      · rw [if_pos same] at separable ⊢
        rw [same, orderSign_cons_same]
        exact ih separable
      rw [if_neg same] at separable ⊢
      rw [orderSign_cons_of_ne (identifierKey_ne same separable)]
      exact compareIdentifiers_separable same separable

theorem separable_of_comparePrereleases
    (compared : comparePrereleases lefts rights = some order) (notGreater : order ≤ 0) :
    Separable lefts rights := by
  induction lefts generalizing rights with
  | nil =>
    cases rights with
    | nil | cons => trivial
  | cons left lefts ih =>
    cases rights with
    | nil => trivial
    | cons right rights =>
      rw [comparePrereleases] at compared
      rw [Separable]
      by_cases same : left = right
      · rw [if_pos same] at compared ⊢
        exact ih compared
      · rw [if_neg same] at compared ⊢
        exact separable_of_compareIdentifiers compared notGreater

theorem head_lt_of_cons_le {left right : Identifier} {lefts rights : List Identifier}
    (ordered : left :: lefts ≤ right :: rights) (different : left ≠ right) : left < right := by
  refine lt_of_le_of_ne (not_lt.mp fun greater => ?_) different
  exact absurd (cons_lt_cons_iff.mpr (.inl greater)) (not_lt.mpr ordered)

theorem tail_le_of_cons_le {key : Identifier} {lefts rights : List Identifier}
    (ordered : key :: lefts ≤ key :: rights) : lefts ≤ rights :=
  not_lt.mp fun greater =>
    absurd (cons_lt_cons_iff.mpr (.inr ⟨rfl, greater⟩)) (not_lt.mpr ordered)

theorem numeric_of_lt (less : identifierKey left < identifierKey right)
    (numeric : isNumericIdentifier right = true) : isNumericIdentifier left = true := by
  cases leftNumeric : isNumericIdentifier left with
  | true => rfl
  | false =>
    rw [identifierKey_other leftNumeric, identifierKey_numeric numeric] at less
    exact absurd less Sum.Lex.not_inr_lt_inl

theorem Separable.trans {lefts middles rights : List Text} (first : Separable lefts middles)
    (second : Separable middles rights)
    (lower : lefts.map identifierKey ≤ middles.map identifierKey)
    (upper : middles.map identifierKey ≤ rights.map identifierKey) : Separable lefts rights := by
  induction lefts generalizing middles rights with
  | nil =>
    cases rights with
    | nil | cons => trivial
  | cons left lefts ih =>
    cases rights with
    | nil => trivial
    | cons right rights =>
      cases middles with
      | nil => exact absurd (nil_lt_cons _ _) (not_lt.mpr lower)
      | cons middle middles =>
        rw [Separable] at first second ⊢
        by_cases below : left = middle
        · subst below
          by_cases above : left = right
          · subst above
            rw [if_pos rfl] at first second ⊢
            exact ih first second (tail_le_of_cons_le lower) (tail_le_of_cons_le upper)
          · rw [if_neg above] at second ⊢
            exact second
        · rw [if_neg below] at first
          have less := head_lt_of_cons_le lower (identifierKey_ne below first)
          by_cases above : middle = right
          · subst above
            rw [if_neg below]
            exact first
          rw [if_neg above] at second
          have more := head_lt_of_cons_le upper (identifierKey_ne above second)
          have strict := less.trans more
          rw [if_neg (fun same => by rw [same] at strict; exact lt_irrefl _ strict)]
          intro leftNumeric rightNumeric
          have middleNumeric := numeric_of_lt more rightNumeric
          refine ⟨(first leftNumeric middleNumeric).1,
            (second middleNumeric rightNumeric).2.1, fun same => ?_⟩
          rw [identifierKey_numeric leftNumeric, identifierKey_numeric rightNumeric, same]
            at strict
          exact lt_irrefl _ strict

def compareParts (left right : ReleaseParts) : Option Int :=
  if left.core ≠ right.core then some (if coreLess left.core right.core then -1 else 1)
  else
    match left.prerelease, right.prerelease with
    | none, none => some 0
    | none, some _ => some 1
    | some _, none => some (-1)
    | some lefts, some rights => comparePrereleases lefts rights

theorem compare_canonical_right (compared : compareReleaseVersions left right = some order) :
    isCanonicalReleaseVersion right = true := by
  unfold compareReleaseVersions at compared
  split at compared
  · cases compared
  rename_i canonical
  cases answer : isCanonicalReleaseVersion right with
  | true => rfl
  | false => simp [answer] at canonical

theorem precedence_lt_of_core {left right : ReleaseParts}
    (less : coreKey left.core < coreKey right.core) : left.precedence < right.precedence :=
  Prod.Lex.toLex_lt_toLex.mpr (.inl less)

theorem orderSign_precedence {left right : ReleaseParts} (same : left.core = right.core) :
    orderSign left.precedence right.precedence =
      orderSign (prereleaseKey left.prerelease) (prereleaseKey right.prerelease) := by
  refine orderSign_congr ?_ ?_
  all_goals
    simp only [ReleaseParts.precedence, Prod.Lex.toLex_lt_toLex, same, lt_irrefl, true_and,
      false_or]

theorem compareParts_separable {left right : ReleaseParts}
    (separable : left.core = right.core → ∀ lefts rights, left.prerelease = some lefts →
      right.prerelease = some rights → Separable lefts rights) :
    compareParts left right = some (orderSign left.precedence right.precedence) := by
  unfold compareParts
  by_cases same : left.core = right.core
  · rw [if_neg (not_not.mpr same), orderSign_precedence same]
    cases isLeft : left.prerelease with
    | none =>
      cases isRight : right.prerelease with
      | none => exact congrArg some (orderSign_self _).symm
      | some rights => exact congrArg some (orderSign_of_gt (WithTop.coe_lt_top _)).symm
    | some lefts =>
      cases isRight : right.prerelease with
      | none => exact congrArg some (orderSign_of_lt (WithTop.coe_lt_top _)).symm
      | some rights =>
        refine (comparePrereleases_separable
          (separable same lefts rights isLeft isRight)).trans (congrArg some ?_)
        exact orderSign_congr WithTop.coe_lt_coe.symm WithTop.coe_lt_coe.symm
  · rw [if_pos same]
    rcases lt_or_gt_of_ne fun keys => same (coreKey_inj keys) with less | greater
    · rw [if_pos (coreLess_iff.mpr less), orderSign_of_lt (precedence_lt_of_core less)]
    · rw [if_neg (fun less => lt_asymm greater (coreLess_iff.mp less)),
        orderSign_of_gt (precedence_lt_of_core greater)]

theorem separable_of_compareParts {left right : ReleaseParts}
    (compared : compareParts left right = some order) (notGreater : order ≤ 0)
    (same : left.core = right.core)
    (isLeft : left.prerelease = some lefts) (isRight : right.prerelease = some rights) :
    Separable lefts rights := by
  unfold compareParts at compared
  rw [if_neg (not_not.mpr same), isLeft, isRight] at compared
  exact separable_of_comparePrereleases compared notGreater

section

variable (leftCanonical : isCanonicalReleaseVersion left = true)
  (rightCanonical : isCanonicalReleaseVersion right = true)
include leftCanonical rightCanonical

theorem compareReleaseVersions_eq :
    compareReleaseVersions left right = (do
      let leftParts ← releaseParts left
      let rightParts ← releaseParts right
      compareParts leftParts rightParts) := by
  unfold compareReleaseVersions
  rw [leftCanonical, rightCanonical, if_neg (by decide)]
  rfl

theorem compareReleaseVersions_of_parts {leftParts rightParts : ReleaseParts}
    (isLeft : releaseParts left = some leftParts) (isRight : releaseParts right = some rightParts) :
    compareReleaseVersions left right = compareParts leftParts rightParts := by
  rw [compareReleaseVersions_eq leftCanonical rightCanonical, isLeft, isRight]
  rfl

theorem compare_comparable (comparable : Comparable left right) :
    compareReleaseVersions left right =
      some (orderSign (releasePrecedence left) (releasePrecedence right)) := by
  obtain ⟨leftParts, rightParts, isLeft, isRight, separable⟩ := comparable
  rw [compareReleaseVersions_of_parts leftCanonical rightCanonical isLeft isRight,
    releasePrecedence_of_parts isLeft, releasePrecedence_of_parts isRight]
  exact compareParts_separable separable

theorem comparable_of_compare
    (compared : compareReleaseVersions left right = some order) (notGreater : order ≤ 0) :
    Comparable left right := by
  rw [compareReleaseVersions_eq leftCanonical rightCanonical] at compared
  cases isLeft : releaseParts left with
  | none =>
    rw [isLeft] at compared
    cases compared
  | some leftParts =>
    cases isRight : releaseParts right with
    | none =>
      rw [isLeft, isRight] at compared
      cases compared
    | some rightParts =>
      rw [isLeft, isRight] at compared
      exact ⟨leftParts, rightParts, isLeft, isRight, fun same lefts rights isLefts isRights =>
        separable_of_compareParts compared notGreater same isLefts isRights⟩

end

theorem core_le_of_precedence {left right : ReleaseParts}
    (ordered : left.precedence ≤ right.precedence) : coreKey left.core ≤ coreKey right.core := by
  rcases Prod.Lex.toLex_le_toLex.mp ordered with less | ⟨same, _⟩
  · exact less.le
  · exact same.le

theorem prerelease_le_of_precedence {left right : ReleaseParts} (same : left.core = right.core)
    (ordered : left.precedence ≤ right.precedence) :
    prereleaseKey left.prerelease ≤ prereleaseKey right.prerelease := by
  rcases Prod.Lex.toLex_le_toLex.mp ordered with less | ⟨_, rest⟩
  · exact absurd (congrArg coreKey same) less.ne
  · exact rest

theorem Comparable.trans {left middle right : Text} (first : Comparable left middle)
    (second : Comparable middle right)
    (lower : releasePrecedence left ≤ releasePrecedence middle)
    (upper : releasePrecedence middle ≤ releasePrecedence right) : Comparable left right := by
  obtain ⟨leftParts, middleParts, isLeft, isMiddle, apart⟩ := first
  obtain ⟨_, rightParts, isMiddle', isRight, apart'⟩ := second
  cases isMiddle.symm.trans isMiddle'
  rw [releasePrecedence_of_parts isLeft, releasePrecedence_of_parts isMiddle] at lower
  rw [releasePrecedence_of_parts isMiddle, releasePrecedence_of_parts isRight] at upper
  refine ⟨leftParts, rightParts, isLeft, isRight, ?_⟩
  intro same lefts rights isLefts isRights
  have cores : leftParts.core = middleParts.core := by
    refine coreKey_inj (le_antisymm (core_le_of_precedence lower) ?_)
    rw [same]
    exact core_le_of_precedence upper
  have lowerKeys := prerelease_le_of_precedence cores lower
  have upperKeys := prerelease_le_of_precedence (cores.symm.trans same) upper
  rw [isLefts] at lowerKeys
  rw [isRights] at upperKeys
  cases isMiddles : middleParts.prerelease with
  | none =>
    rw [isMiddles] at upperKeys
    exact absurd (WithTop.coe_lt_top _) (not_lt.mpr upperKeys)
  | some middles =>
    rw [isMiddles] at lowerKeys upperKeys
    exact (apart cores lefts middles isLefts isMiddles).trans
      (apart' (cores.symm.trans same) middles rights isMiddles isRights)
      (WithTop.coe_le_coe.mp lowerKeys) (WithTop.coe_le_coe.mp upperKeys)

/-- What is asked of the comparison of two versions. -/
structure ConsistentOrder (left right : Text) : Prop where
  antisymmetric : ∃ order, compareReleaseVersions left right = some order ∧
    compareReleaseVersions right left = some (-order)
  transitive : ∀ further first second, compareReleaseVersions left right = some first →
    compareReleaseVersions right further = some second → first ≤ 0 → second ≤ 0 →
      ∃ whole, compareReleaseVersions left further = some whole ∧ whole ≤ 0 ∧
        (whole = 0 ↔ first = 0 ∧ second = 0)
  tied : compareReleaseVersions left right = some 0 ↔
    releasePrecedence left = releasePrecedence right
  ignoresBuild : ∀ left' right', isCanonicalReleaseVersion left' = true →
    isCanonicalReleaseVersion right' = true →
    left'.takeWhile (· ≠ '+') = left.takeWhile (· ≠ '+') →
    right'.takeWhile (· ≠ '+') = right.takeWhile (· ≠ '+') →
      compareReleaseVersions left' right' = compareReleaseVersions left right

/-- `compare_release_versions` is consistent on two versions exactly if they are comparable. -/
theorem compareReleaseVersions_consistent (left right : Text)
    (leftCanonical : isCanonicalReleaseVersion left = true)
    (rightCanonical : isCanonicalReleaseVersion right = true) :
    ConsistentOrder left right ↔ Comparable left right := by
  constructor
  · intro consistent
    obtain ⟨order, forwards, backwards⟩ := consistent.antisymmetric
    rcases Int.le_total order 0 with notGreater | notLess
    · exact comparable_of_compare leftCanonical rightCanonical forwards notGreater
    · exact (comparable_of_compare rightCanonical leftCanonical backwards (by omega)).symm
  · intro comparable
    have forwards := compare_comparable leftCanonical rightCanonical comparable
    have backwards := compare_comparable rightCanonical leftCanonical comparable.symm
    refine ⟨⟨_, forwards, ?_⟩, ?_, ?_, ?_⟩
    · rw [backwards, orderSign_swap]
    · intro further first second isFirst isSecond firstLow secondLow
      obtain rfl := Option.some.inj (forwards.symm.trans isFirst)
      have furtherCanonical := compare_canonical_right isSecond
      have next := comparable_of_compare rightCanonical furtherCanonical isSecond secondLow
      obtain rfl := Option.some.inj
        ((compare_comparable rightCanonical furtherCanonical next).symm.trans isSecond)
      have lower := orderSign_nonpos.mp firstLow
      have upper := orderSign_nonpos.mp secondLow
      refine ⟨_, compare_comparable leftCanonical furtherCanonical
        (comparable.trans next lower upper), orderSign_nonpos.mpr (lower.trans upper), ?_⟩
      rw [orderSign_eq_zero, orderSign_eq_zero, orderSign_eq_zero]
      constructor
      · intro same
        have tied : releasePrecedence left = releasePrecedence right :=
          le_antisymm lower (same ▸ upper)
        exact ⟨tied, tied.symm.trans same⟩
      · rintro ⟨first, second⟩
        exact first.trans second
    · rw [forwards, Option.some.injEq, orderSign_eq_zero]
    · intro left' right' leftCanonical' rightCanonical' leftSame rightSame
      rw [compareReleaseVersions_eq leftCanonical' rightCanonical',
        compareReleaseVersions_eq leftCanonical rightCanonical]
      unfold releaseParts
      rw [leftSame, rightSame]

theorem prerelease_consistent :
    compareReleaseVersions "1.0.0-rc.1".toList "1.0.0+linux".toList = some (-1) ∧
      ConsistentOrder "1.0.0-rc.1".toList "1.0.0+linux".toList :=
  ⟨by decide +kernel,
    (compareReleaseVersions_consistent _ _ (by decide +kernel) (by decide +kernel)).mpr
      (comparable_of_compare (by decide +kernel) (by decide +kernel)
        (show _ = some (-1) by decide +kernel) (by decide))⟩

/-- Each of the two counts as the greater one. -/
theorem leadingZero_inconsistent :
    ¬ ∀ left right : Text, isCanonicalReleaseVersion left = true →
      isCanonicalReleaseVersion right = true → ConsistentOrder left right := by
  intro consistent
  obtain ⟨order, forwards, backwards⟩ := (consistent "1.0.0-01".toList "1.0.0-1".toList
    (by decide +kernel) (by decide +kernel)).antisymmetric
  have first : compareReleaseVersions "1.0.0-01".toList "1.0.0-1".toList = some 1 := by
    decide +kernel
  have second : compareReleaseVersions "1.0.0-1".toList "1.0.0-01".toList = some 1 := by
    decide +kernel
  obtain rfl := Option.some.inj (first.symm.trans forwards)
  cases second.symm.trans backwards

end XFerry.Management
