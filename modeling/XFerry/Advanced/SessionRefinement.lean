/-
The session store answers as the history does.

Between two operations the store shows the good tenures at every later time.
Each operation acts on one digest, so one lemma about a change at a digest
serves them all; that a digest has one good tenure comes from the collision
check of `create`.
-/

import XFerry.Advanced.SessionHistory

namespace XFerry.AdvancedSessions

open EventMachine Python List OrderedDict History

open Base64Url (encode)

variable {Digest : Type} [DecidableEq Digest] {digest : Text → Digest}
variable {sessions : Sessions Digest} {now later : Int}

/-! ### Expiry -/

variable {session : AdvancedSession}

theorem isExpired_eq_false :
    isExpired session now = false ↔
      now < session.expiresAt ∧ now < session.lastActivityAt + idleTimeout := by
  rw [isExpired, Bool.or_eq_false_iff, decide_eq_false_iff_not, decide_eq_false_iff_not]
  omega

theorem isExpired_mono (passed : now ≤ later)
    (alive : isExpired session later = false) : isExpired session now = false := by
  obtain ⟨lifetime, activity⟩ := isExpired_eq_false.mp alive
  exact isExpired_eq_false.mpr (by omega)

variable {entry : Digest × StoredAdvancedSession Digest}

section

omit [DecidableEq Digest]

theorem mem_purgeExpired :
    entry ∈ (purgeExpired now sessions).entries ↔
      entry ∈ sessions.entries ∧ isExpired entry.2.session now = false := by
  rw [purgeExpired, OrderedDict.filter, mem_filter, Bool.not_eq_true']

theorem purgeExpired_purgeExpired (passed : now ≤ later) (sessions : Sessions Digest) :
    purgeExpired later (purgeExpired now sessions) = purgeExpired later sessions := by
  have entries : (purgeExpired later (purgeExpired now sessions)).entries =
      (purgeExpired later sessions).entries := by
    simp only [purgeExpired, OrderedDict.filter, filter_filter]
    apply filter_congr
    intro entry _present
    cases alive : isExpired entry.2.session later with
    | false => rw [isExpired_mono passed alive, Bool.and_self]
    | true => rfl
  cases purged : purgeExpired later (purgeExpired now sessions) with
  | mk left leftDistinct =>
    cases other : purgeExpired later sessions with
    | mk right rightDistinct =>
      rw [purged, other] at entries
      cases entries
      rfl

theorem sameView_purgeExpired (now : Int) (sessions : Sessions Digest) :
    SameView now sessions (purgeExpired now sessions) :=
  fun _ passed => purgeExpired_purgeExpired passed sessions

end

namespace Tenure

variable {tenure : Tenure}

theorem activities_ne_nil (tenure : Tenure) : tenure.minted :: tenure.activities ≠ [] :=
  cons_ne_nil _ _

def lastActivity (tenure : Tenure) : Int :=
  (tenure.minted :: tenure.activities).getLast tenure.activities_ne_nil

theorem lasts_iff :
    tenure.Lasts now ↔
      now < tenure.minted + absoluteLifetime ∧
        (tenure.minted :: tenure.activities).IsChain
          (fun earlier later => later < earlier + idleTimeout) ∧
        now < tenure.lastActivity + idleTimeout := by
  rw [Lasts, isChain_append, getLast?_eq_some_getLast (cons_ne_nil _ _)]
  simp [lastActivity]

theorem Lasts.mono (lasts : tenure.Lasts later) (passed : now ≤ later) : tenure.Lasts now := by
  obtain ⟨lifetime, chain, activity⟩ := lasts_iff.mp lasts
  exact lasts_iff.mpr ⟨by omega, chain, by omega⟩

theorem Valid.mono (valid : tenure.Valid later) (passed : now ≤ later) : tenure.Valid now :=
  ⟨valid.1, valid.2.mono passed⟩

section

omit [DecidableEq Digest]

theorem Valid.not_isExpired (valid : tenure.Valid now) :
    isExpired (tenure.stored digest).session now = false := by
  obtain ⟨lifetime, _, activity⟩ := lasts_iff.mp valid.2
  exact isExpired_eq_false.mpr ⟨lifetime, activity⟩

theorem Valid.of_not_isExpired (valid : tenure.Valid now)
    (alive : isExpired (tenure.stored digest).session later = false) : tenure.Valid later := by
  obtain ⟨_, chain, _⟩ := lasts_iff.mp valid.2
  obtain ⟨lifetime, activity⟩ := isExpired_eq_false.mp alive
  exact ⟨valid.1, lasts_iff.mpr ⟨lifetime, chain, activity⟩⟩

theorem stored_active (tenure : Tenure) (now : Int) :
    (tenure.active now).stored digest =
      { tenure.stored digest with
        session := { (tenure.stored digest).session with lastActivityAt := now } } := by
  simp [stored, active]

end

theorem Valid.active (valid : tenure.Valid now) : (tenure.active now).Valid now := by
  obtain ⟨lifetime, chain, activity⟩ := lasts_iff.mp valid.2
  refine ⟨valid.1, lasts_iff.mpr ⟨lifetime, ?_, ?_⟩⟩
  · exact valid.2.2
  · have last : (tenure.active now).lastActivity = now := by
      simp [lastActivity, Tenure.active]
    have positive : 0 < idleTimeout := by decide
    omega

end Tenure

/-! ### Finding a digest -/

def WellKeyed (sessions : Sessions Digest) : Prop :=
  ∀ entry ∈ sessions.entries, entry.2.tokenDigest = entry.1

theorem locateDigest_eq_lookup (keyed : WellKeyed sessions) (candidate : Digest) :
    locateDigest sessions candidate = sessions.lookup candidate := by
  have matched (stored : StoredAdvancedSession Digest) :
      stored ∈ (sessions.entries.map Prod.snd).filter
          (fun stored => stored.tokenDigest = candidate) ↔
        (candidate, stored) ∈ sessions.entries := by
    rw [mem_filter, mem_map, decide_eq_true_eq]
    constructor
    · rintro ⟨⟨entry, member, rfl⟩, same⟩
      have key := keyed entry member
      rw [same] at key
      rw [key]
      exact member
    · intro member
      exact ⟨⟨(candidate, stored), member, rfl⟩, keyed (candidate, stored) member⟩
  rw [locateDigest]
  cases found : sessions.lookup candidate with
  | none =>
    rw [getLast?_eq_none_iff, eq_nil_iff_forall_not_mem]
    intro stored member
    exact lookup_eq_none.mp found stored ((matched stored).mp member)
  | some stored =>
    have present := (matched stored).mpr (lookup_eq_some.mp found)
    obtain ⟨last, ends⟩ := Option.isSome_iff_exists.mp (getLast?_isSome.mpr (ne_nil_of_mem present))
    have other := (matched last).mp (mem_of_getLast? ends)
    rw [ends, sessions.value_unique other (lookup_eq_some.mp found)]

/-! ### What the store shows -/

namespace Shows

variable {clock : Int} {tenures : List Tenure}

section

variable (shown : Shows digest clock sessions tenures) (passed : clock ≤ now)
include shown passed

section

omit [DecidableEq Digest]

theorem purge : Shows digest now (purgeExpired now sessions) tenures := by
  intro later passedNow entry
  rw [purgeExpired_purgeExpired passedNow]
  exact shown later (Int.le_trans passed passedNow) entry

theorem wellKeyed : WellKeyed (purgeExpired now sessions) := by
  intro entry member
  obtain ⟨tenure, _, _, same⟩ := (shown now passed entry).mp member
  rw [same]
  rfl

end

variable {stored : StoredAdvancedSession Digest}

theorem lookup_eq_some_iff {candidate : Digest} :
    (purgeExpired now sessions).lookup candidate = some stored ↔
      ∃ tenure ∈ tenures, tenure.Valid now ∧ digest tenure.token = candidate ∧
        tenure.stored digest = stored := by
  rw [lookup_eq_some, shown now passed]
  constructor
  · rintro ⟨tenure, member, valid, same⟩
    cases same
    exact ⟨tenure, member, valid, rfl, rfl⟩
  · rintro ⟨tenure, member, valid, rfl, rfl⟩
    exact ⟨tenure, member, valid, rfl⟩

theorem stored_unique {first second : Tenure} (firstMember : first ∈ tenures)
    (firstValid : first.Valid now)
    (secondMember : second ∈ tenures) (secondValid : second.Valid now)
    (same : digest first.token = digest second.token) :
    first.stored digest = second.stored digest := by
  have left := (lookup_eq_some_iff shown passed).mpr ⟨first, firstMember, firstValid, same, rfl⟩
  have right := (lookup_eq_some_iff shown passed).mpr ⟨second, secondMember, secondValid, rfl, rfl⟩
  exact Option.some.inj (left.symm.trans right)

end

theorem at_key {after : Sessions Digest} {changed : List Tenure} (key : Digest)
    (shown : Shows digest now sessions tenures)
    (others : ∀ entry : Digest × StoredAdvancedSession Digest, entry.1 ≠ key →
      (entry ∈ after.entries ↔ entry ∈ sessions.entries))
    (otherTenures : ∀ tenure, digest tenure.token ≠ key →
      (tenure ∈ changed ↔ tenure ∈ tenures))
    (here : ∀ later, now ≤ later → ∀ stored : StoredAdvancedSession Digest,
      (key, stored) ∈ (purgeExpired later after).entries ↔
        ∃ tenure ∈ changed, tenure.Valid later ∧ (key, stored) =
          (digest tenure.token, tenure.stored digest)) :
    Shows digest now after changed := by
  intro later passed entry
  by_cases same : entry.1 = key
  · obtain ⟨name, stored⟩ := entry
    change name = key at same
    rw [same]
    exact here later passed stored
  · rw [mem_purgeExpired, others entry same, ← mem_purgeExpired, shown later passed entry]
    constructor
    · rintro ⟨tenure, member, valid, equal⟩
      have other : digest tenure.token ≠ key := by
        rw [equal] at same
        exact same
      exact ⟨tenure, (otherTenures tenure other).mpr member, valid, equal⟩
    · rintro ⟨tenure, member, valid, equal⟩
      have other : digest tenure.token ≠ key := by
        rw [equal] at same
        exact same
      exact ⟨tenure, (otherTenures tenure other).mp member, valid, equal⟩

end Shows

variable {changes : Tenure → Bool} {tenure : Tenure} {key : Digest}

omit [DecidableEq Digest] in
theorem mem_map_of_other {tenures : List Tenure} (change : Tenure → Tenure)
    (token : ∀ tenure, (change tenure).token = tenure.token)
    (only : ∀ tenure ∈ tenures, changes tenure = true → digest tenure.token = key)
    (other : digest tenure.token ≠ key) :
    tenure ∈ tenures.map (fun tenure => if changes tenure then change tenure else tenure) ↔
      tenure ∈ tenures := by
  rw [mem_map]
  constructor
  · rintro ⟨original, member, equal⟩
    cases changed : changes original with
    | false =>
      rw [changed, if_neg Bool.false_ne_true] at equal
      rw [← equal]
      exact member
    | true =>
      rw [changed, if_pos rfl] at equal
      rw [← equal, token] at other
      exact absurd (only original member changed) other
  · intro member
    refine ⟨tenure, member, if_neg ?_⟩
    exact fun changed => other (only tenure member changed)

theorem mem_assign_self {old new : StoredAdvancedSession Digest} :
    (key, old) ∈ (sessions.assign key new).entries ↔ old = new := by
  rw [← lookup_eq_some, lookup_assign, if_pos rfl, Option.some.injEq]
  exact eq_comm

theorem mem_assign_of_ne {new : StoredAdvancedSession Digest} (other : entry.1 ≠ key) :
    entry ∈ (sessions.assign key new).entries ↔ entry ∈ sessions.entries := by
  rw [← lookup_eq_some, lookup_assign, if_neg other, lookup_eq_some]

/-- The tenures that an operation on a digest changes: all good ones of that digest. -/
structure Selects (digest : Text → Digest) (now : Int) (key : Digest) (tenures : List Tenure)
    (changes : Tenure → Bool) : Prop where
  only : ∀ tenure ∈ tenures, changes tenure = true → tenure.Valid now ∧ digest tenure.token = key
  all : ∀ tenure ∈ tenures, tenure.Valid now → digest tenure.token = key → changes tenure = true

omit [DecidableEq Digest] in
theorem Selects.changed {tenures : List Tenure} {change : Tenure → Tenure} {later : Int}
    (selects : Selects digest now key tenures changes) (passed : now ≤ later)
    (present : tenure ∈ tenures.map fun tenure => if changes tenure then change tenure else tenure)
    (lasting : tenure.Valid later) (same : digest tenure.token = key) :
    ∃ original ∈ tenures, original.Valid now ∧ digest original.token = key ∧
      tenure = change original := by
  obtain ⟨original, before, made⟩ := mem_map.mp present
  cases changed : changes original with
  | false =>
    rw [changed, if_neg Bool.false_ne_true] at made
    subst made
    have selected := selects.all original before (lasting.mono passed) same
    rw [changed] at selected
    cases selected
  | true =>
    rw [changed, if_pos rfl] at made
    obtain ⟨was, named⟩ := selects.only original before changed
    exact ⟨original, before, was, named, made.symm⟩

namespace Shows

variable {tenures : List Tenure} {key : Digest} {changes : Tenure → Bool}

section

variable (shown : Shows digest now sessions tenures)
include shown

theorem touch (selects : Selects digest now key tenures changes) {holder : Tenure}
    (member : holder ∈ tenures) (valid : holder.Valid now) (named : digest holder.token = key)
    (unique : ∀ tenure ∈ tenures, tenure.Valid now → digest tenure.token = key →
      tenure.stored digest = holder.stored digest) :
    Shows digest now (sessions.assign key ((holder.active now).stored digest))
      (tenures.map fun tenure => if changes tenure then tenure.active now else tenure) := by
  apply shown.at_key key
  case others => exact fun entry other => mem_assign_of_ne other
  case otherTenures =>
    exact fun tenure other => mem_map_of_other (fun tenure => tenure.active now) (fun _ => rfl)
      (fun original present changed => (selects.only original present changed).2) other
  case here =>
    intro later passed stored
    rw [mem_purgeExpired, mem_assign_self]
    constructor
    · rintro ⟨rfl, alive⟩
      refine ⟨holder.active now, ?_, valid.active.of_not_isExpired alive, ?_⟩
      · exact mem_map.mpr ⟨holder, member, if_pos (selects.all holder member valid named)⟩
      · exact Prod.ext named.symm rfl
    · rintro ⟨tenure, present, lasting, equal⟩
      obtain ⟨original, before, was, same, rfl⟩ :=
        selects.changed passed present lasting (congrArg Prod.fst equal).symm
      have record := congrArg Prod.snd equal
      change stored = (original.active now).stored digest at record
      rw [Tenure.stored_active, unique original before was same, ← Tenure.stored_active] at record
      have alive : isExpired ((original.active now).stored digest).session later = false :=
        lasting.not_isExpired
      rw [Tenure.stored_active, unique original before was same, ← Tenure.stored_active] at alive
      rw [record]
      exact ⟨rfl, alive⟩

theorem revoke (selects : Selects digest now key tenures changes) :
    Shows digest now (sessions.erase key)
      (tenures.map fun tenure => if changes tenure then tenure.finished else tenure) := by
  apply shown.at_key key
  case others =>
    intro entry other
    rw [mem_erase]
    exact ⟨fun both => both.1, fun present => ⟨present, other⟩⟩
  case otherTenures =>
    exact fun tenure other => mem_map_of_other Tenure.finished (fun _ => rfl)
      (fun original present changed => (selects.only original present changed).2) other
  case here =>
    intro later passed stored
    rw [mem_purgeExpired]
    constructor
    · intro present
      exact absurd rfl (mem_erase.mp present.1).2
    · rintro ⟨tenure, present, lasting, equal⟩
      obtain ⟨original, _, _, _, rfl⟩ :=
        selects.changed passed present lasting (congrArg Prod.fst equal).symm
      cases lasting.1

theorem mint (minted : Tenure) (named : digest minted.token = key) (fresh : minted.Valid now)
    (free : ∀ tenure ∈ tenures, tenure.Valid now → digest tenure.token ≠ key) :
    Shows digest now (sessions.assign key (minted.stored digest)) (tenures ++ [minted]) := by
  apply shown.at_key key
  case others => exact fun entry other => mem_assign_of_ne other
  case otherTenures =>
    intro tenure other
    rw [mem_append, mem_singleton, or_iff_left]
    intro same
    rw [same] at other
    exact other named
  case here =>
    intro later passed stored
    rw [mem_purgeExpired, mem_assign_self]
    constructor
    · rintro ⟨rfl, alive⟩
      refine ⟨minted, ?_, fresh.of_not_isExpired alive, Prod.ext named.symm rfl⟩
      exact mem_append_right _ (mem_singleton_self _)
    · rintro ⟨tenure, present, lasting, equal⟩
      have same : digest tenure.token = key := (congrArg Prod.fst equal).symm
      cases mem_append.mp present with
      | inl before => exact absurd same (free tenure before (lasting.mono passed))
      | inr last =>
        rw [mem_singleton] at last
        subst last
        have record := congrArg Prod.snd equal
        change stored = tenure.stored digest at record
        rw [record]
        exact ⟨rfl, lasting.not_isExpired⟩

end

omit [DecidableEq Digest] in
theorem clear (tenures : List Tenure) :
    Shows digest now (empty : Sessions Digest) (tenures.map Tenure.finished) := by
  intro later _ entry
  constructor
  · intro present
    cases (mem_purgeExpired.mp present).1
  · rintro ⟨tenure, present, lasting, _⟩
    obtain ⟨original, _, rfl⟩ := mem_map.mp present
    cases lasting.1

end Shows

/-! ### The invariant -/

/-- A request's handle is bound to the tenure it was resolved against. -/
def Bound (digest : Text → Digest) (tenures : List Tenure)
    (dispatch : AdvancedSessionDispatch Digest) (number : Nat) : Prop :=
  ∃ tenure ∈ tenures, tenure.number = number ∧
    dispatch.touchHandle = some { tokenDigest := digest tenure.token, createdAt := tenure.minted }

structure Refines (digest : Text → Digest) (clock : Int) (state : System Digest × History) :
    Prop where
  view : Shows digest clock state.1.sessions state.2.tenures
  bounded : state.1.sessions.size ≤ maxSessions
  numbered : state.2.tenures.map Tenure.number = range state.2.tenures.length
  bound : List.Forall₂ (Bound digest state.2.tenures) state.1.dispatches state.2.dispatched

def Tenure.mint (tenure : Tenure) : Int × Text := (tenure.minted, tenure.token)

def CollisionFree (digest : Text → Digest) (tokens : List Text) : Prop :=
  ∀ first ∈ tokens, ∀ second ∈ tokens, digest first = digest second → first = second

def Event.tokens (event : Event) : List Text :=
  match event.operation with
  | .create _ _ draws => (ofFn draws).map encode
  | .resolve token _ _ | .prepare token _ _ | .revoke token _ => [token]
  | .touchDispatch _ | .invalidateAll => []

def Event.mints (event : Event) : List (Int × Text) :=
  match event.operation with
  | .create _ _ draws => (ofFn draws).map fun raw => (event.now, encode raw)
  | _ => []

/-- What one step relies on: the random source repeats no token at one reading
of the clock, and the digest tells the tokens in play apart. -/
structure Distinct (digest : Text → Digest) (tenures : List Tenure) (mints : List (Int × Text))
    (tokens : List Text) : Prop where
  mints : (tenures.map Tenure.mint ++ mints).Nodup
  tokens : CollisionFree digest (tenures.map Tenure.token ++ tokens)

variable {token : Text} {principal : AdvancedSessionPrincipal}

section Step

variable {clock : Int} {tenures : List Tenure} {mints : List (Int × Text)} {tokens : List Text}

theorem Distinct.unique (distinct : Distinct digest tenures mints tokens)
    (shown : Shows digest clock sessions tenures) (passed : clock ≤ now) {first second : Tenure}
    (firstMember : first ∈ tenures) (firstValid : first.Valid now)
    (secondMember : second ∈ tenures) (secondValid : second.Valid now)
    (same : digest first.token = digest second.token) : first = second := by
  have stored := shown.stored_unique passed firstMember firstValid secondMember secondValid same
  have minted : first.minted = second.minted :=
    congrArg (fun stored => stored.session.createdAt) stored
  have token : first.token = second.token :=
    distinct.tokens _ (mem_append_left _ (mem_map_of_mem firstMember)) _
      (mem_append_left _ (mem_map_of_mem secondMember)) same
  exact inj_on_of_nodup_map distinct.mints.of_append_left firstMember secondMember
    (Prod.ext minted token)

omit [DecidableEq Digest] in
theorem Distinct.token_eq (distinct : Distinct digest tenures mints tokens)
    (member : tenure ∈ tenures) (asked : token ∈ tokens)
    (same : digest tenure.token = digest token) : tenure.token = token :=
  distinct.tokens _ (mem_append_left _ (mem_map_of_mem member)) _ (mem_append_right _ asked) same

variable (distinct : Distinct digest tenures mints tokens)
  (shown : Shows digest clock sessions tenures) (passed : clock ≤ now)

section

include shown passed

section

variable (member : tenure ∈ tenures)
include member

theorem locateDigest_of_valid (valid : tenure.Valid now) :
    locateDigest (purgeExpired now sessions) (digest tenure.token) =
      some (tenure.stored digest) := by
  rw [locateDigest_eq_lookup (shown.wellKeyed passed), shown.lookup_eq_some_iff passed]
  exact ⟨tenure, member, valid, rfl, rfl⟩

theorem resolve_of_admits (admits : tenure.Admits token principal now) (touch : Bool) :
    resolve digest sessions token principal touch now =
      if touch then (some ((tenure.active now).stored digest).session,
          (purgeExpired now sessions).assign (digest token) ((tenure.active now).stored digest))
      else (some (tenure.stored digest).session, purgeExpired now sessions) := by
  obtain ⟨rfl, rfl, valid⟩ := admits
  have found := locateDigest_of_valid shown passed member valid
  have owned : ¬ (tenure.stored digest).principal ≠ tenure.principal := fun differs => differs rfl
  unfold resolve
  simp only [found, if_neg owned, refresh, Tenure.stored_active]
  rfl

theorem revoke_of_admits (admits : tenure.Admits token principal now) :
    revoke digest sessions token principal now =
      (true, (purgeExpired now sessions).erase (digest token)) := by
  obtain ⟨rfl, rfl, valid⟩ := admits
  have found := locateDigest_of_valid shown passed member valid
  have owned : ¬ (tenure.stored digest).principal ≠ tenure.principal := fun differs => differs rfl
  unfold revoke
  simp only [found, if_neg owned]
  rfl

theorem touchDispatch_of_valid (valid : tenure.Valid now)
    {dispatch : AdvancedSessionDispatch Digest} (bound : dispatch.touchHandle =
      some { tokenDigest := digest tenure.token, createdAt := tenure.minted }) :
    touchDispatch sessions dispatch now = (some ((tenure.active now).stored digest).session,
        (purgeExpired now sessions).assign (digest tenure.token)
          ((tenure.active now).stored digest)) := by
  have found := (shown.lookup_eq_some_iff passed).mpr ⟨tenure, member, valid, rfl, rfl⟩
  have created : ¬ (tenure.stored digest).session.createdAt ≠ tenure.minted :=
    fun differs => differs rfl
  unfold touchDispatch
  simp only [bound, found, if_neg created, Tenure.stored_active]

end

end

include distinct shown passed

theorem admits_of_located (asked : token ∈ tokens)
    (found : locateDigest (purgeExpired now sessions) (digest token) = some stored) :
    ∃ tenure ∈ tenures, tenure.Admits token stored.principal now := by
  rw [locateDigest_eq_lookup (shown.wellKeyed passed), shown.lookup_eq_some_iff passed] at found
  obtain ⟨tenure, member, valid, same, rfl⟩ := found
  exact ⟨tenure, member, distinct.token_eq member asked same, rfl, valid⟩

theorem principal_ne (asked : token ∈ tokens)
    (unheld : ¬ ∃ tenure ∈ tenures, tenure.Admits token principal now)
    (found : locateDigest (purgeExpired now sessions) (digest token) = some stored) :
    stored.principal ≠ principal := by
  rintro rfl
  exact unheld (admits_of_located distinct shown passed asked found)

theorem resolve_of_not_holds (asked : token ∈ tokens)
    (unheld : ¬ ∃ tenure ∈ tenures, tenure.Admits token principal now) (touch : Bool) :
    resolve digest sessions token principal touch now = (none, purgeExpired now sessions) := by
  unfold resolve
  cases found : locateDigest (purgeExpired now sessions) (digest token) with
  | none => simp only [found]
  | some stored =>
    simp only [found, if_pos (principal_ne distinct shown passed asked unheld found)]

theorem revoke_of_not_holds (asked : token ∈ tokens)
    (unheld : ¬ ∃ tenure ∈ tenures, tenure.Admits token principal now) :
    revoke digest sessions token principal now = (false, purgeExpired now sessions) := by
  unfold revoke
  cases found : locateDigest (purgeExpired now sessions) (digest token) with
  | none => simp only [found]
  | some stored =>
    simp only [found, if_pos (principal_ne distinct shown passed asked unheld found)]

theorem touchDispatch_of_not_valid (member : tenure ∈ tenures) (invalid : ¬ tenure.Valid now)
    {dispatch : AdvancedSessionDispatch Digest} (bound : dispatch.touchHandle =
      some { tokenDigest := digest tenure.token, createdAt := tenure.minted }) :
    touchDispatch sessions dispatch now = (none, purgeExpired now sessions) := by
  unfold touchDispatch
  cases found : (purgeExpired now sessions).lookup (digest tenure.token) with
  | none => simp only [bound, found]
  | some stored =>
    obtain ⟨other, present, valid, same, rfl⟩ := (shown.lookup_eq_some_iff passed).mp found
    have token : other.token = tenure.token :=
      distinct.tokens _ (mem_append_left _ (mem_map_of_mem present)) _
        (mem_append_left _ (mem_map_of_mem member)) same
    have created : (other.stored digest).session.createdAt ≠ tenure.minted := by
      intro minted
      have equal : other = tenure :=
        inj_on_of_nodup_map distinct.mints.of_append_left present member (Prod.ext minted token)
      rw [equal] at valid
      exact invalid valid
    simp only [bound, found, if_pos created]

end Step

/-! ### Steps of the history -/

section History

variable {history : History} {system : System Digest} {clock : Int}

omit [DecidableEq Digest] in
theorem numbers_distinct (refines : Refines digest clock (system, history)) :
    (history.tenures.map Tenure.number).Nodup := by
  rw [refines.numbered]
  exact nodup_range

theorem map_change {β : Type} {change : Tenure → Tenure} (field : Tenure → β)
    (kept : ∀ tenure, field (change tenure) = field tenure) :
    (history.change changes change).tenures.map field = history.tenures.map field := by
  rw [History.change, map_map]
  apply map_congr_left
  intro tenure _
  change field (if changes tenure then change tenure else tenure) = field tenure
  split
  · exact kept tenure
  · rfl

omit [DecidableEq Digest] in
/-- A change of tenures that keeps what identifies them keeps the invariant,
when the store shows the changed tenures. -/
theorem Refines.change (refines : Refines digest clock (system, history))
    {sessions : Sessions Digest} (change : Tenure → Tenure)
    (number : ∀ tenure, (change tenure).number = tenure.number)
    (mint : ∀ tenure, (change tenure).mint = tenure.mint)
    (view : Shows digest now sessions (history.change changes change).tenures)
    (bounded : sessions.size ≤ maxSessions) :
    Refines digest now ({ system with sessions := sessions }, history.change changes change) where
  view := view
  bounded := bounded
  numbered := by rw [map_change Tenure.number number, refines.numbered, History.change, length_map]
  bound := by
    apply refines.bound.imp
    intro dispatch number' binding
    obtain ⟨tenure, member, named, handle⟩ := binding
    refine ⟨if changes tenure then change tenure else tenure,
      mem_map.mpr ⟨tenure, member, rfl⟩, ?_, ?_⟩
    · split
      · rw [number, named]
      · exact named
    · split
      · have same := mint tenure
        rw [Tenure.mint, Tenure.mint, Prod.mk.injEq] at same
        rw [same.1, same.2, handle]
      · exact handle

theorem size_assign_of_located {old : StoredAdvancedSession Digest}
    (found : sessions.lookup key = some old) (new : StoredAdvancedSession Digest) :
    (sessions.assign key new).size = sessions.size := by
  rw [size_assign, found, if_neg (Option.some_ne_none _)]

variable {mints : List (Int × Text)} {tokens : List Text}

section

variable (refines : Refines digest clock (system, history)) (passed : clock ≤ now)
include refines passed

section

omit [DecidableEq Digest]

theorem Refines.purge :
    Refines digest now ({ system with sessions := purgeExpired now system.sessions }, history) where
  view := refines.view.purge passed
  bounded := (size_filter_le _ _).trans refines.bounded
  __ := refines

theorem Refines.wait : Refines digest now (system, history) where
  view := fun later after => refines.view later (Int.le_trans passed after)
  __ := refines

end

variable (distinct : Distinct digest history.tenures mints tokens)
include distinct

theorem Refines.touch (member : tenure ∈ history.tenures) (valid : tenure.Valid now)
    (selects : ∀ other ∈ history.tenures, changes other = true ↔ other = tenure) :
    Refines digest now ({ system with
          sessions := (purgeExpired now system.sessions).assign (digest tenure.token)
            ((tenure.active now).stored digest) },
        history.change changes fun tenure => tenure.active now) := by
  have shown := refines.view.purge passed
  have chosen : Selects digest now (digest tenure.token) history.tenures changes := by
    constructor
    · intro other present changed
      rw [(selects other present).mp changed]
      exact ⟨valid, rfl⟩
    · intro other present lasting same
      exact (selects other present).mpr
        (distinct.unique refines.view passed present lasting member valid same)
  apply refines.change (fun tenure => tenure.active now) (fun _ => rfl) (fun _ => rfl)
  · apply shown.touch chosen member valid rfl
    intro other present lasting same
    exact refines.view.stored_unique passed present lasting member valid same
  · have found := (refines.view.lookup_eq_some_iff passed).mpr ⟨tenure, member, valid, rfl, rfl⟩
    rw [size_assign_of_located found]
    exact (size_filter_le _ _).trans refines.bounded

theorem admits_iff_eq (member : tenure ∈ history.tenures)
    (admits : tenure.Admits token principal now) :
    ∀ other ∈ history.tenures,
      decide (other.Admits token principal now) = true ↔ other = tenure := by
  intro other present
  rw [decide_eq_true_eq]
  constructor
  · intro admitted
    apply distinct.unique refines.view passed present admitted.2.2 member admits.2.2
    rw [admitted.1, admits.1]
  · rintro rfl
    exact admits

end

theorem change_of_none (change : Tenure → Tenure)
    (none : ∀ tenure ∈ history.tenures, changes tenure = false) :
    history.change changes change = history := by
  have same : history.tenures.map (fun tenure => if changes tenure then change tenure else tenure) =
      history.tenures := by
    conv_rhs => rw [← map_id history.tenures]
    apply map_congr_left
    intro tenure member
    rw [none tenure member]
    rfl
  rw [History.change, same]

theorem change_admits_of_not_holds
    (unheld : ¬ history.Holds token principal now) (change : Tenure → Tenure) :
    history.change (fun tenure => decide (tenure.Admits token principal now)) change = history := by
  apply change_of_none
  intro tenure member
  rw [decide_eq_false_iff_not]
  exact fun admits => unheld ⟨tenure, member, admits⟩

/-- What is to be shown of one operation: its answer, and the invariant after it. -/
def Correct (digest : Text → Digest) (state : System Digest × History) (event : Event) : Prop :=
  Answered digest state event ∧
    Refines digest event.now
      ((state.1.perform digest event).2,
        state.2.record event (state.1.perform digest event).1.minted)

section

variable {good : Tenure → Prop} (change : Tenure → Tenure)

omit [DecidableEq Digest]

theorem Gives.of_only (member : tenure ∈ history.tenures) (holds : good tenure)
    (only : ∀ other ∈ history.tenures, good other → other = tenure) :
    Gives digest (.session (some ((change tenure).stored digest).session)) history.tenures good
      change := by
  intro session
  constructor
  · rintro ⟨⟩
    exact ⟨tenure, member, holds, rfl⟩
  · rintro ⟨other, present, admitted, rfl⟩
    rw [only other present admitted]

theorem Gives.of_none (none : ∀ tenure ∈ history.tenures, ¬ good tenure) :
    Gives digest (.session .none) history.tenures good change := by
  refine fun session => ⟨nofun, ?_⟩
  rintro ⟨tenure, member, holds, _⟩
  exact absurd holds (none tenure member)

end

section

variable (refines : Refines digest clock (system, history))
include refines

omit [DecidableEq Digest] in
theorem Refines.dispatch
    (member : tenure ∈ history.tenures) {dispatch : AdvancedSessionDispatch Digest}
    (handle : dispatch.touchHandle =
      some { tokenDigest := digest tenure.token, createdAt := tenure.minted }) :
    Refines digest clock ({ system with dispatches := system.dispatches ++ [dispatch] },
        { history with dispatched := history.dispatched ++ [tenure.number] }) where
  __ := refines
  bound := rel_append refines.bound (.cons ⟨tenure, member, rfl, handle⟩ .nil)

theorem invalidateAll_correct :
    Correct digest (system, history) { now := now, operation := .invalidateAll } := by
  refine ⟨trivial, ?_⟩
  apply refines.change Tenure.finished (fun _ => rfl) (fun _ => rfl)
  · exact Shows.clear history.tenures
  · exact Nat.zero_le _

variable (passed : clock ≤ now) (distinct : Distinct digest history.tenures mints tokens)
  (asked : token ∈ tokens) (principal : AdvancedSessionPrincipal)
include passed distinct asked

theorem resolve_correct (touch : Bool) :
    Correct digest (system, history)
      { now := now, operation := .resolve token principal touch } := by
  by_cases holds : history.Holds token principal now
  · obtain ⟨tenure, member, admits⟩ := holds
    have resolved := resolve_of_admits refines.view passed member admits touch
    have held : history.Holds token principal now := ⟨tenure, member, admits⟩
    have only := admits_iff_eq refines passed distinct member admits
    have isOnly := fun other present admitted => (only other present).mp (decide_eq_true admitted)
    cases touch with
    | true =>
      have touched := refines.touch passed distinct member admits.2.2 only
      rw [admits.1] at touched
      simp only [Correct, Answered, System.perform, record, resolved, if_true]
      exact ⟨⟨.of_only (·.active now) member admits isOnly, fun unheld => absurd held unheld⟩,
        touched⟩
    | false =>
      simp only [Correct, Answered, System.perform, record, resolved, Bool.false_eq_true, if_false]
      exact ⟨⟨.of_only id member admits isOnly, fun unheld => absurd held unheld⟩,
        refines.purge passed⟩
  · have resolved := resolve_of_not_holds distinct refines.view passed asked holds touch
    have recorded : history.record { now := now, operation := .resolve token principal touch }
        none = history := by
      cases touch with
      | true => exact change_admits_of_not_holds holds _
      | false => rfl
    simp only [Correct, Answered, System.perform, resolved, minted_session, recorded]
    exact ⟨⟨.of_none _ fun tenure member admits => holds ⟨tenure, member, admits⟩,
      fun _ => sameView_purgeExpired _ _⟩, refines.purge passed⟩

theorem prepare_correct (accepted : Bool) :
    Correct digest (system, history)
      { now := now, operation := .prepare token principal accepted } := by
  by_cases holds : history.Holds token principal now
  · obtain ⟨tenure, member, admits⟩ := holds
    have held : history.Holds token principal now := ⟨tenure, member, admits⟩
    have resolved := resolve_of_admits refines.view passed member admits false
    have purged := refines.purge passed
    have only := admits_iff_eq refines passed distinct member admits
    have isOnly := fun other present admitted => (only other present).mp (decide_eq_true admitted)
    cases accepted with
    | true =>
      have found : history.tenures.find? (fun tenure =>
          decide (tenure.Admits token principal now)) = some tenure := by
        cases search : history.tenures.find? (fun tenure =>
            decide (tenure.Admits token principal now)) with
        | none =>
          exact absurd (decide_eq_true admits) (find?_eq_none.mp search tenure member)
        | some other =>
          have present := mem_of_find?_eq_some search
          have chosen : decide (other.Admits token principal now) = true := by
            simpa using find?_some search
          rw [(only other present).mp chosen]
      simp only [Correct, Answered, System.perform, System.prepare, record, resolved,
        found, if_true]
      refine ⟨⟨.of_only id member admits isOnly, fun unheld => absurd held unheld⟩, ?_⟩
      apply purged.dispatch member
      rw [touchHandleForResolvedSession, admits.1]
      rfl
    | false =>
      simp only [Correct, Answered, System.perform, System.prepare, record, resolved,
        Bool.false_eq_true, if_false]
      exact ⟨⟨.of_only id member admits isOnly, fun unheld => absurd held unheld⟩, purged⟩
  · have resolved := resolve_of_not_holds distinct refines.view passed asked holds false
    have recorded : history.record { now := now, operation := .prepare token principal accepted }
        none = history := by
      cases accepted with
      | true =>
        have search : history.tenures.find? (fun tenure =>
            decide (tenure.Admits token principal now)) = none := by
          rw [find?_eq_none]
          intro tenure member admits
          exact holds ⟨tenure, member, of_decide_eq_true admits⟩
        simp only [record, search, if_true]
      | false => rfl
    simp only [Correct, Answered, System.perform, System.prepare, resolved, minted_session,
      recorded]
    exact ⟨⟨.of_none _ fun tenure member admits => holds ⟨tenure, member, admits⟩,
      fun _ => sameView_purgeExpired _ _⟩, refines.purge passed⟩

theorem revoke_correct :
    Correct digest (system, history) { now := now, operation := .revoke token principal } := by
  by_cases holds : history.Holds token principal now
  · obtain ⟨tenure, member, admits⟩ := holds
    have held : history.Holds token principal now := ⟨tenure, member, admits⟩
    have revoked := revoke_of_admits refines.view passed member admits
    have only := admits_iff_eq refines passed distinct member admits
    simp only [Correct, Answered, System.perform, record, revoked]
    refine ⟨⟨⟨fun _ => held, fun _ => trivial⟩, fun unheld => absurd held unheld⟩, ?_⟩
    apply refines.change Tenure.finished (fun _ => rfl) (fun _ => rfl)
    · apply (refines.view.purge passed).revoke
      constructor
      · intro other present changed
        rw [(only other present).mp changed, admits.1]
        exact ⟨admits.2.2, rfl⟩
      · intro other present valid same
        apply (only other present).mpr
        apply distinct.unique refines.view passed present valid member admits.2.2
        rw [same, admits.1]
    · exact (size_erase_le _ _).trans ((size_filter_le _ _).trans refines.bounded)
  · have revoked := revoke_of_not_holds distinct refines.view passed asked holds
    simp only [Correct, Answered, System.perform, revoked]
    refine ⟨⟨⟨?_, fun held => absurd held holds⟩, fun _ => sameView_purgeExpired _ _⟩, ?_⟩
    · rintro ⟨⟩
    · simp only [record]
      rw [change_admits_of_not_holds holds]
      exact refines.purge passed

end

theorem exists_getElem_of_forall₂ {α β : Type} {relation : α → β → Prop} {left : List α}
    {right : List β} (related : List.Forall₂ relation left right) (index : Nat) :
    left[index]? = none ∧ right[index]? = none ∨
      ∃ first second, left[index]? = some first ∧ right[index]? = some second ∧
        relation first second := by
  induction related generalizing index with
  | nil => exact .inl ⟨rfl, rfl⟩
  | cons here _ ih =>
    cases index with
    | zero => exact .inr ⟨_, _, rfl, rfl, here⟩
    | succ index => exact ih index

theorem touchDispatch_correct
    (refines : Refines digest clock (system, history)) (passed : clock ≤ now)
    (distinct : Distinct digest history.tenures mints tokens) (request : Nat) :
    Correct digest (system, history) { now := now, operation := .touchDispatch request } := by
  cases exists_getElem_of_forall₂ refines.bound request with
  | inl absent =>
    obtain ⟨noDispatch, noNumber⟩ := absent
    simp only [Correct, Answered, System.perform, record, noDispatch, noNumber]
    exact ⟨⟨.of_none _ (by simp), fun _ _ _ => rfl⟩, refines.wait passed⟩
  | inr present =>
    obtain ⟨dispatch, number, found, numbered, tenure, member, named, handle⟩ := present
    have only : ∀ other ∈ history.tenures, other.number = number ↔ other = tenure := by
      intro other belongs
      constructor
      · intro same
        exact inj_on_of_nodup_map (numbers_distinct refines) belongs member (same.trans named.symm)
      · rintro rfl
        exact named
    have isOnly : ∀ other ∈ history.tenures,
        some number = some other.number ∧ other.Valid now → other = tenure :=
      fun other belongs both => (only other belongs).mp (Option.some.inj both.1).symm
    by_cases valid : tenure.Valid now
    · have touched := touchDispatch_of_valid refines.view passed member valid handle
      simp only [Correct, Answered, System.perform, record, found, numbered, touched]
      refine ⟨⟨.of_only (·.active now) member ⟨congrArg some named.symm, valid⟩ isOnly,
        fun unheld => absurd ⟨number, numbered, tenure, member, named, valid⟩ unheld⟩, ?_⟩
      apply refines.touch passed distinct member valid
      intro other belongs
      rw [decide_eq_true_eq, only other belongs]
      constructor
      · exact fun both => both.1
      · rintro rfl
        exact ⟨rfl, valid⟩
    · have missed := touchDispatch_of_not_valid distinct refines.view passed member valid handle
      have unchanged : history.change
          (fun tenure => decide (tenure.number = number ∧ tenure.Valid now))
          (fun tenure => tenure.active now) = history := by
        apply change_of_none
        intro other belongs
        rw [decide_eq_false_iff_not, only other belongs]
        rintro ⟨rfl, lasting⟩
        exact valid lasting
      simp only [Correct, Answered, System.perform, record, found, numbered, missed, unchanged]
      exact ⟨⟨.of_none _ fun other belongs both => valid (isOnly other belongs both ▸ both.2),
        fun _ => sameView_purgeExpired _ _⟩, refines.purge passed⟩

theorem mint_cases (sessions : Sessions Digest) (settings : SessionSettings)
    (principal : AdvancedSessionPrincipal) (now : Int) (draws : List (List UInt8)) :
    (∃ failure, mint digest sessions settings principal now draws = (.error failure, sessions)) ∨
      ∃ raw ∈ draws, locateDigest sessions (digest (encode raw)) = none ∧
        mint digest sessions settings principal now draws =
          (.ok { token := encode raw, session := freshSession settings now },
            sessions.assign (digest (encode raw))
              { tokenDigest := digest (encode raw)
                session := freshSession settings now
                principal := principal }) := by
  induction draws with
  | nil => exact .inl ⟨_, rfl⟩
  | cons raw rest ih =>
    by_cases sized : raw.length ≠ tokenBytes
    · exact .inl ⟨_, if_pos sized⟩
    · cases found : locateDigest sessions (digest (encode raw)) with
      | none =>
        refine .inr ⟨raw, mem_cons_self .., found, ?_⟩
        simp only [mint, if_neg sized, found, freshSession]
      | some stored =>
        have skipped : mint digest sessions settings principal now (raw :: rest) =
            mint digest sessions settings principal now rest := by
          simp only [mint, if_neg sized, found]
        rw [skipped]
        refine ih.imp_right fun given => ?_
        obtain ⟨other, member, absent, result⟩ := given
        exact ⟨other, mem_cons_of_mem _ member, absent, result⟩

theorem valid_of_fresh (minted : tenure.minted = now)
    (unused : tenure.activities = []) (running : tenure.ended = false) : tenure.Valid now := by
  refine ⟨running, ?_⟩
  have lifetime : 0 < absoluteLifetime := by decide
  have idle : 0 < idleTimeout := by decide
  rw [Tenure.Lasts, minted, unused]
  simp only [nil_append, cons_append, isChain_cons_cons, isChain_singleton, and_true]
  omega

theorem Refines.create (refines : Refines digest clock (system, history)) (passed : clock ≤ now)
    (number : tenure.number = history.tenures.length)
    (fresh : tenure.Valid now) (room : (purgeExpired now system.sessions).size < maxSessions)
    (free : locateDigest (purgeExpired now system.sessions) (digest tenure.token) = none) :
    Refines digest now ({ system with
          sessions := (purgeExpired now system.sessions).assign (digest tenure.token)
            (tenure.stored digest) }, { history with tenures := history.tenures ++ [tenure] }) where
  view := by
    apply (refines.view.purge passed).mint tenure rfl fresh
    intro other member valid same
    have found := locateDigest_of_valid refines.view passed member valid
    rw [same, free] at found
    cases found
  bounded := by
    rw [locateDigest_eq_lookup (refines.view.wellKeyed passed)] at free
    rw [size_assign, if_pos free]
    exact room
  numbered := by
    rw [map_append, refines.numbered, length_append, length_singleton,
      range_succ, map_singleton, number]
  bound := by
    apply refines.bound.imp
    intro dispatch number' binding
    obtain ⟨other, member, named, handle⟩ := binding
    exact ⟨other, mem_append_left _ member, named, handle⟩

variable (digest) in
/-- Either no token is given out and the store is only purged, or one of the
draws is, which no session in the purged store has. -/
theorem create_cases (sessions : Sessions Digest) (settings : SessionSettings)
    (principal : AdvancedSessionPrincipal) (draws : Fin maxCollisionAttempts → List UInt8)
    (now : Int) :
    (∃ failure, create digest sessions settings principal draws now =
        (.error failure, purgeExpired now sessions)) ∨
      (purgeExpired now sessions).size < maxSessions ∧
        ∃ raw ∈ ofFn draws,
          locateDigest (purgeExpired now sessions) (digest (encode raw)) = none ∧
          create digest sessions settings principal draws now =
            (.ok { token := encode raw, session := freshSession settings now },
              (purgeExpired now sessions).assign (digest (encode raw))
                { tokenDigest := digest (encode raw)
                  session := freshSession settings now
                  principal := principal }) := by
  by_cases full : maxSessions ≤ (purgeExpired now sessions).size
  · exact .inl ⟨_, if_pos full⟩
  have attempted : create digest sessions settings principal draws now =
      mint digest (purgeExpired now sessions) settings principal now (ofFn draws) :=
    if_neg full
  rw [attempted]
  exact (mint_cases _ settings principal now (ofFn draws)).imp_right fun made =>
    ⟨Nat.lt_of_not_le full, made⟩

theorem create_correct (refines : Refines digest clock (system, history)) (passed : clock ≤ now)
    (settings : SessionSettings) (principal : AdvancedSessionPrincipal)
    (draws : Fin maxCollisionAttempts → List UInt8) :
    Correct digest (system, history)
      { now := now, operation := .create settings principal draws } := by
  cases create_cases digest system.sessions settings principal draws now with
  | inl failed =>
    obtain ⟨failure, failed⟩ := failed
    simp only [Correct, Answered, System.perform, record, failed]
    exact ⟨nofun, refines.purge passed⟩
  | inr made =>
    obtain ⟨room, raw, _, free, made⟩ := made
    simp only [Correct, Answered, System.perform, record, made]
    let tenure : Tenure :=
      { number := history.tenures.length
        token := encode raw
        settings := settings
        principal := principal
        minted := now
        activities := []
        ended := false }
    have fresh : tenure.Valid now := valid_of_fresh rfl rfl rfl
    refine ⟨?_, refines.create passed (rfl : tenure.number = _) fresh room free⟩
    rintro _ ⟨⟩
    exact ⟨rfl, mem_assign_self.mpr rfl⟩

variable {event : Event}

theorem perform_correct
    (refines : Refines digest clock (system, history)) (passed : clock ≤ event.now)
    (distinct : Distinct digest history.tenures mints tokens)
    (asked : ∀ token ∈ event.tokens, token ∈ tokens) :
    Correct digest (system, history) event := by
  obtain ⟨now, operation⟩ := event
  cases operation with
  | create settings principal draws => exact create_correct refines passed settings principal draws
  | resolve token principal touch =>
    exact resolve_correct refines passed distinct
      (asked token (mem_singleton_self _)) principal touch
  | prepare token principal accepted =>
    exact prepare_correct refines passed distinct
      (asked token (mem_singleton_self _)) principal accepted
  | touchDispatch request => exact touchDispatch_correct refines passed distinct request
  | revoke token principal =>
    exact revoke_correct refines passed distinct (asked token (mem_singleton_self _)) principal
  | invalidateAll => exact invalidateAll_correct refines

/-! ### What an operation leaves alone -/

omit [DecidableEq Digest] in
theorem mem_of_mem_purgeExpired
    (present : entry ∈ (purgeExpired now sessions).entries) : entry ∈ sessions.entries :=
  (mem_purgeExpired.mp present).1

theorem mem_touched (shown : Shows digest clock sessions history.tenures) (passed : clock ≤ now)
    (member : tenure ∈ history.tenures) (valid : tenure.Valid now)
    (present : entry ∈ ((purgeExpired now sessions).assign (digest tenure.token)
      ((tenure.active now).stored digest)).entries) :
    entry ∈ sessions.entries ∨ (digest tenure.token, tenure.stored digest) ∈ sessions.entries ∧
        entry = (digest tenure.token, { tenure.stored digest with
            session := { (tenure.stored digest).session with lastActivityAt := now } }) := by
  obtain ⟨key, stored⟩ := entry
  by_cases same : key = digest tenure.token
  · rw [same, mem_assign_self] at present
    have before := (shown now passed _).mpr ⟨tenure, member, valid, rfl⟩
    refine .inr ⟨mem_of_mem_purgeExpired before, ?_⟩
    rw [same, present, Tenure.stored_active]
  · rw [mem_assign_of_ne same] at present
    exact .inl (mem_of_mem_purgeExpired present)

variable (digest) in
theorem resolve_untouched (token : Text) (principal : AdvancedSessionPrincipal) :
    (resolve digest sessions token principal false now).2 = purgeExpired now sessions := by
  unfold resolve
  cases found : locateDigest (purgeExpired now sessions) (digest token) with
  | none => simp only [found]
  | some stored =>
    by_cases other : stored.principal ≠ principal
    · simp only [found, if_pos other]
    · simp only [found, if_neg other, Bool.false_eq_true, if_false]

theorem prepare_sessions (token : Text) (principal : AdvancedSessionPrincipal) (accepted : Bool) :
    (system.prepare digest token principal accepted now).2.sessions =
      purgeExpired now system.sessions := by
  rw [← resolve_untouched digest token principal]
  unfold System.prepare
  dsimp only
  cases (resolve digest system.sessions token principal false now).1 with
  | none => rfl
  | some session =>
    cases accepted with
    | true | false => rfl

theorem perform_framed
    (refines : Refines digest clock (system, history)) (passed : clock ≤ event.now)
    (distinct : Distinct digest history.tenures mints tokens)
    (asked : ∀ token ∈ event.tokens, token ∈ tokens) :
    Framed digest (system, history) event := by
  obtain ⟨now, operation⟩ := event
  cases operation with
  | create settings principal draws => trivial
  | resolve token principal touch =>
    intro entry present
    simp only [System.perform] at present
    by_cases holds : touch = true ∧ history.Holds token principal now
    · obtain ⟨rfl, tenure, member, admits⟩ := holds
      rw [resolve_of_admits refines.view passed member admits, if_pos rfl, ← admits.1] at present
      refine (mem_touched refines.view passed member admits.2.2 present).imp_right fun touched =>
        ?_
      exact ⟨tenure, member, ⟨rfl, admits⟩, touched⟩
    · left
      cases touch with
      | true =>
        have unheld : ¬ history.Holds token principal now := fun held => holds ⟨rfl, held⟩
        rw [resolve_of_not_holds distinct refines.view passed
          (asked token (mem_singleton_self _)) unheld] at present
        exact mem_of_mem_purgeExpired present
      | false =>
        rw [resolve_untouched digest] at present
        exact mem_of_mem_purgeExpired present
  | prepare token principal accepted =>
    intro entry present
    simp only [System.perform, prepare_sessions] at present
    exact .inl (mem_of_mem_purgeExpired present)
  | touchDispatch request =>
    intro entry present
    cases exists_getElem_of_forall₂ refines.bound request with
    | inl absent =>
      simp only [System.perform, absent.1] at present
      exact .inl present
    | inr found =>
      obtain ⟨dispatch, number, found, numbered, tenure, member, named, handle⟩ := found
      simp only [System.perform, found] at present
      by_cases valid : tenure.Valid now
      · rw [touchDispatch_of_valid refines.view passed member valid handle] at present
        refine (mem_touched refines.view passed member valid present).imp_right fun touched =>
          ?_
        refine ⟨tenure, member, ⟨?_, valid⟩, touched⟩
        rw [named]
        exact numbered
      · rw [touchDispatch_of_not_valid distinct refines.view passed member valid handle]
          at present
        exact .inl (mem_of_mem_purgeExpired present)
  | revoke token principal =>
    intro entry present
    simp only [System.perform] at present
    left
    by_cases holds : history.Holds token principal now
    · obtain ⟨tenure, member, admits⟩ := holds
      rw [revoke_of_admits refines.view passed member admits] at present
      exact mem_of_mem_purgeExpired (mem_erase.mp present).1
    rw [revoke_of_not_holds distinct refines.view passed
      (asked token (mem_singleton_self _)) holds] at present
    exact mem_of_mem_purgeExpired present
  | invalidateAll =>
    intro entry present
    cases present

/-! ### What an operation adds to the history -/

theorem mints_tokens : event.mints.map Prod.snd ⊆ event.tokens := by
  obtain ⟨now, operation⟩ := event
  cases operation with
  | create settings principal draws =>
    exact List.Subset.refl _
  | _ => exact nil_subset _

theorem minted_mem (given : (system.perform digest event).1.minted = some token) :
    (event.now, token) ∈ event.mints := by
  obtain ⟨now, operation⟩ := event
  cases operation with
  | create settings principal draws =>
    cases create_cases digest system.sessions settings principal draws now with
    | inl failed =>
      obtain ⟨failure, failed⟩ := failed
      simp only [System.perform, failed] at given
      cases given
    | inr made =>
      obtain ⟨_, raw, drawn, _, made⟩ := made
      simp only [System.perform, made] at given
      cases given
      exact mem_map.mpr ⟨raw, drawn, rfl⟩
  | touchDispatch request =>
    simp only [System.perform] at given
    split at given
    · cases given
    · cases given
  | _ => cases given

variable (history) in
theorem record_mints {minted : Option Text}
    (given : ∀ token, minted = some token → (event.now, token) ∈ event.mints) :
    ∃ made, made.Sublist event.mints ∧ (history.record event minted).tenures.map Tenure.mint =
        history.tenures.map Tenure.mint ++ made := by
  obtain ⟨now, operation⟩ := event
  have unchanged {after : History}
      (same : after.tenures.map Tenure.mint = history.tenures.map Tenure.mint) :
      ∃ made, made.Sublist (Event.mints ⟨now, operation⟩) ∧
        after.tenures.map Tenure.mint = history.tenures.map Tenure.mint ++ made :=
    ⟨[], nil_sublist _, by rw [same, append_nil]⟩
  cases operation with
  | create settings principal draws =>
    cases minted with
    | none => exact unchanged rfl
    | some token =>
      refine ⟨[(now, token)], singleton_sublist.mpr (given token rfl), ?_⟩
      simp only [record, map_append, map_singleton, Tenure.mint]
  | resolve token principal touch =>
    apply unchanged
    cases touch with
    | true => exact map_change Tenure.mint fun _ => rfl
    | false => rfl
  | prepare token principal accepted =>
    apply unchanged
    simp only [record]
    split
    · split <;> rfl
    · rfl
  | touchDispatch request =>
    apply unchanged
    simp only [record]
    split
    · rfl
    · exact map_change Tenure.mint fun _ => rfl
  | revoke | invalidateAll => exact unchanged (map_change Tenure.mint fun _ => rfl)

section

omit [DecidableEq Digest]

theorem CollisionFree.mono {all some : List Text} (free : CollisionFree digest all)
    (within : some ⊆ all) : CollisionFree digest some :=
  fun first firstMember second secondMember =>
    free first (within firstMember) second (within secondMember)

theorem Distinct.record {minted : Option Text}
    (distinct : Distinct digest history.tenures (event.mints ++ mints) (event.tokens ++ tokens))
    (given : ∀ token, minted = some token → (event.now, token) ∈ event.mints) :
    Distinct digest (history.record event minted).tenures mints tokens := by
  obtain ⟨made, within, recorded⟩ := record_mints history given
  have names (tenures : List Tenure) :
      tenures.map Tenure.token = (tenures.map Tenure.mint).map Prod.snd := by
    rw [map_map]
    rfl
  constructor
  · rw [recorded, append_assoc]
    apply List.Nodup.sublist _ distinct.mints
    exact (List.Sublist.refl _).append (within.append (List.Sublist.refl _))
  · apply distinct.tokens.mono
    rw [names, recorded, map_append, ← names, append_assoc]
    intro token member
    rw [mem_append, mem_append] at member ⊢
    refine member.imp_right (Or.imp_left fun drawn => ?_)
    exact mints_tokens (map_subset _ within.subset drawn)

end

end History

/-! ### Runs -/

theorem run_correct {events : List Event} {state : System Digest × History} {clock : Int}
    (refines : Refines digest clock state) (passed : ∀ event ∈ events, clock ≤ event.now)
    (ordered : (events.map Event.now).Pairwise (· ≤ ·))
    (distinct : Distinct digest state.2.tenures (events.flatMap Event.mints)
      (events.flatMap Event.tokens)) :
    ∃ final, run (step digest) state events = some final ∧
      Along (step digest) (fun state event => Answered digest state event ∧
        Framed digest state event) state events ∧
      (∃ ended, Refines digest ended final) ∧
      ∀ later, clock ≤ later → (∀ event ∈ events, event.now ≤ later) →
        Refines digest later final := by
  induction events generalizing state clock with
  | nil => exact ⟨state, rfl, trivial, ⟨clock, refines⟩, fun later after _ => refines.wait after⟩
  | cons event rest ih =>
    obtain ⟨system, history⟩ := state
    have now := passed event (mem_cons_self ..)
    have asked : ∀ token ∈ event.tokens, token ∈ (event :: rest).flatMap Event.tokens :=
      fun token member => mem_flatMap.mpr ⟨event, mem_cons_self .., member⟩
    have correct := perform_correct refines now distinct asked
    have framed := perform_framed refines now distinct asked
    rw [map_cons, pairwise_cons] at ordered
    have waiting : ∀ other ∈ rest, event.now ≤ other.now :=
      fun other member => ordered.1 other.now (mem_map_of_mem member)
    have recorded : Distinct digest (history.record event
        (system.perform digest event).1.minted).tenures (rest.flatMap Event.mints)
        (rest.flatMap Event.tokens) := distinct.record fun token given => minted_mem given
    obtain ⟨final, reached, answered, ended, refined⟩ := ih correct.2 waiting ordered.2 recorded
    refine ⟨final, reached, ⟨⟨correct.1, framed⟩, answered⟩, ended, ?_⟩
    intro later _ after
    apply refined later (after event (mem_cons_self ..))
    exact fun other member => after other (mem_cons_of_mem _ member)

omit [DecidableEq Digest] in
theorem Refines.initial (clock : Int) : Refines digest clock (System.initial, initial) where
  view := Shows.clear []
  bounded := Nat.zero_le _
  numbered := rfl
  bound := .nil

/-- For any operations in the order of the clock: every answer is the one the
history gives, nothing but a `create` adds to the store, there are never more
sessions than allowed, and those that have not expired are the good tenures.
The random source repeats no token at one time, and the digest has no collision
among the tokens of the run. -/
theorem run_answersHistory (digest : Text → Digest) (events : List Event)
    (ordered : (events.map Event.now).Pairwise (· ≤ ·))
    (freshDraws : (events.flatMap Event.mints).Nodup)
    (collisionFree : CollisionFree digest (events.flatMap Event.tokens)) :
    ∃ final, run (step digest) (System.initial, initial) events = some final ∧
      Along (step digest) (fun state event => Answered digest state event ∧
        Framed digest state event) (System.initial, initial) events ∧
      final.1.sessions.size ≤ maxSessions ∧
      ∀ later, (∀ event ∈ events, event.now ≤ later) →
        Shows digest later final.1.sessions final.2.tenures := by
  cases events with
  | nil => exact ⟨_, rfl, trivial, Nat.zero_le _, fun later _ => (Refines.initial later).view⟩
  | cons first rest =>
    have passed : ∀ event ∈ first :: rest, first.now ≤ event.now := by
      rw [map_cons, pairwise_cons] at ordered
      intro event member
      cases mem_cons.mp member with
      | inl same => exact Int.le_of_eq (congrArg Event.now same.symm)
      | inr member => exact ordered.1 event.now (mem_map_of_mem member)
    have distinct : Distinct digest initial.tenures
        ((first :: rest).flatMap Event.mints) ((first :: rest).flatMap Event.tokens) :=
      ⟨freshDraws, collisionFree⟩
    obtain ⟨final, reached, answered, ⟨_, ended⟩, refines⟩ :=
      run_correct (Refines.initial first.now) passed ordered distinct
    refine ⟨final, reached, answered, ended.bounded, ?_⟩
    intro later after
    exact (refines later (after first (mem_cons_self ..)) after).view

def sampleToken : Text := encode (replicate tokenBytes 0)

def sampleEvents : List Event :=
  [ { now := 0
      operation := .create { routePrefix := [], decoder := [], diagnosticHeaders := false } .noAuth
        fun attempt => replicate tokenBytes (UInt8.ofNat attempt) },
    { now := 5, operation := .resolve sampleToken (.basic []) true },
    { now := 10, operation := .prepare sampleToken .noAuth true },
    { now := 20, operation := .touchDispatch 0 },
    { now := 30, operation := .revoke sampleToken .noAuth },
    { now := 40, operation := .touchDispatch 0 } ]

theorem sampleEvents_answersHistory :
    ∃ final, run (step id) (System.initial, initial) sampleEvents = some final ∧
      Along (step id) (fun state event => Answered id state event ∧ Framed id state event)
        (System.initial, initial) sampleEvents ∧
      final.1.sessions.size ≤ maxSessions ∧
      ∀ later, (∀ event ∈ sampleEvents, event.now ≤ later) →
        Shows id later final.1.sessions final.2.tenures :=
  run_answersHistory id sampleEvents (by decide +kernel) (by decide +kernel)
    fun _ _ _ _ same => same

end XFerry.AdvancedSessions
