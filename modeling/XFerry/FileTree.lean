/-
A tree of directories, files and symbolic links, and two ways through it: that of
`open`, which only goes where there is something, and that of `realpath`, which also
follows a path past its last entry.
-/

import XFerry.Ensures

namespace XFerry

open List

abbrev Name := List Char

abbrev Place := List Name

inductive Entry where
  | file
  | directory
  | link (target : List Char)
deriving DecidableEq

def currentName : Name := ['.']

def parentName : Name := ['.', '.']

def nullChar : Char := Char.ofNat 0

structure IsEntryName (name : Name) : Prop where
  ne_nil : name ≠ []
  ne_current : name ≠ currentName
  ne_parent : name ≠ parentName
  not_null : nullChar ∉ name

instance (name : Name) : Decidable (IsEntryName name) :=
  decidable_of_iff (name ≠ [] ∧ name ≠ currentName ∧ name ≠ parentName ∧ nullChar ∉ name)
    ⟨fun ⟨first, second, third, fourth⟩ => ⟨first, second, third, fourth⟩,
      fun proper => ⟨proper.1, proper.2, proper.3, proper.4⟩⟩

structure FileTree where
  entry : Place → Option Entry
  root : entry [] = some .directory
  nested : ∀ place name, entry (place ++ [name]) ≠ none → entry place = some .directory
  named : ∀ place name, entry (place ++ [name]) ≠ none → IsEntryName name

/-- Why a path has no place: too many links on the way, or a null character. -/
inductive WalkFault where
  | tooManyLinks
  | nullCharacter

namespace FileTree

def entryOf (entries : List (Place × Entry)) (place : Place) : Option Entry :=
  if place = [] then some .directory else entries.lookup place

variable {place : Place} {name : Name} {entries : List (Place × Entry)}

theorem mem_of_entryOf (found : entryOf entries (place ++ [name]) ≠ none) :
    ∃ entry, (place ++ [name], entry) ∈ entries := by
  rw [entryOf, if_neg (by simp)] at found
  obtain ⟨entry, isListed⟩ := Option.ne_none_iff_exists'.mp found
  obtain ⟨before, after, rfl, _⟩ := lookup_eq_some_iff.mp isListed
  exact ⟨entry, by simp⟩

def ofEntries (entries : List (Place × Entry))
    (closed : ∀ listed ∈ entries, entryOf entries listed.1.dropLast = some .directory ∧
      ∀ name ∈ listed.1.getLast?, IsEntryName name) : FileTree where
  entry := entryOf entries
  root := rfl
  nested := by
    intro place name found
    obtain ⟨entry, isListed⟩ := mem_of_entryOf found
    have inside := (closed _ isListed).1
    rwa [dropLast_concat] at inside
  named := by
    intro place name found
    obtain ⟨entry, isListed⟩ := mem_of_entryOf found
    exact (closed _ isListed).2 name (by simp)

variable (tree : FileTree)

def linkStart (directory : Place) (target : List Char) : Place :=
  if target.head? = some '/' then [] else directory

def visit (follow : Place → List Name → Except WalkFault Place) (place : Place) (name : Name) :
    Except WalkFault Place :=
  if name = [] ∨ name = currentName then .ok place
  else if name = parentName then .ok place.dropLast
  else if nullChar ∈ name then .error .nullCharacter
  else
    match tree.entry (place ++ [name]) with
    | some (.link target) => follow (linkStart place target) (target.splitOn '/')
    | _ => .ok (place ++ [name])

/-- `realpath`, from a place that has no links on it.  Links are nested to a limited
depth, which those that lead in a circle exceed. -/
def realPath : Nat → Place → List Name → Except WalkFault Place
  | 0, _, _ => .error .tooManyLinks
  | levels + 1, place, names => names.foldlM (tree.visit (realPath levels)) place

def leadsWith (follow : Place → List Name → Option Place) : Place → List Name → Option Place
  | place, [] => some place
  | place, name :: rest =>
    if tree.entry place ≠ some .directory then none
    else if name = [] ∨ name = currentName then leadsWith follow place rest
    else if name = parentName then leadsWith follow place.dropLast rest
    else
      match tree.entry (place ++ [name]) with
      | none => none
      | some (.link target) => follow (linkStart place target) (target.splitOn '/' ++ rest)
      | some _ => leadsWith follow (place ++ [name]) rest

def leadsTo : Nat → Place → List Name → Option Place
  | 0 => tree.leadsWith fun _ _ => none
  | links + 1 => tree.leadsWith (leadsTo links)

variable {tree : FileTree}

/-- Nothing on the way to the place is a link. -/
structure Resolved (tree : FileTree) (place : Place) : Prop where
  names : ∀ name ∈ place, IsEntryName name
  links : ∀ reached, reached <+: place → ∀ target, tree.entry reached ≠ some (.link target)

def LinkFree (tree : FileTree) : Prop := ∀ place target, tree.entry place ≠ some (.link target)

namespace Resolved

theorem root : Resolved tree [] := by
  refine ⟨fun name member => absurd member not_mem_nil, ?_⟩
  intro reached before target isLink
  rw [prefix_nil.mp before, tree.root] at isLink
  cases isLink

theorem of_prefix {place reached : Place} (resolved : Resolved tree place)
    (before : reached <+: place) : Resolved tree reached :=
  { names := fun name member => resolved.names name (before.mem member)
    links := fun other shorter => resolved.links other (shorter.trans before) }

theorem append (resolved : Resolved tree place) (proper : IsEntryName name)
    (noLink : ∀ target, tree.entry (place ++ [name]) ≠ some (.link target)) :
    Resolved tree (place ++ [name]) := by
  constructor
  case names =>
    intro other member
    rcases mem_append.mp member with earlier | last
    · exact resolved.names other earlier
    · rw [mem_singleton.mp last]
      exact proper
  case links =>
    intro reached before target
    rcases prefix_concat_iff.mp before with rfl | shorter
    · exact noLink target
    · exact resolved.links reached shorter target

end Resolved

theorem isEntryName_of_not (named : ¬ (name = [] ∨ name = currentName))
    (notParent : name ≠ parentName) (notNull : nullChar ∉ name) : IsEntryName name :=
  ⟨fun same => named (.inl same), fun same => named (.inr same), notParent, notNull⟩

variable {follow : Place → List Name → Except WalkFault Place}

theorem visit_resolved
    (follows : ∀ place names, Resolved tree place → Ensures (follow place names) (Resolved tree))
    (name : Name) (resolved : Resolved tree place) :
    Ensures (tree.visit follow place name) (Resolved tree) := by
  refine .ite (fun _ => .ok resolved) fun named => ?_
  refine .ite (fun _ => ?_) fun notParent => ?_
  · exact .ok (resolved.of_prefix (List.dropLast_prefix place))
  · refine .ite (fun _ => .error _) fun notNull => ?_
    have proper := isEntryName_of_not named notParent notNull
    split
    · case _ target _ =>
        refine follows _ _ ?_
        unfold linkStart
        split
        · exact Resolved.root
        · exact resolved
    · case _ noLink =>
        exact .ok (resolved.append proper noLink)

theorem realPath_resolved (levels : Nat) (place : Place) (names : List Name)
    (resolved : Resolved tree place) :
    Ensures (tree.realPath levels place names) (Resolved tree) := by
  induction levels generalizing place names with
  | zero => exact .error _
  | succ levels ih =>
    exact .foldlM (fun name reached holds => visit_resolved ih name holds) resolved names

theorem realPath_append (levels : Nat) (place : Place) (names more : List Name) :
    tree.realPath (levels + 1) place (names ++ more) =
      tree.realPath (levels + 1) place names >>= fun reached =>
        tree.realPath (levels + 1) reached more := by
  simp only [realPath, foldlM_append]

variable {names : List Name}

theorem entry_of_append (found : tree.entry (place ++ names) ≠ none) : tree.entry place ≠ none := by
  induction names generalizing place with
  | nil => rwa [append_nil] at found
  | cons name rest ih =>
    rw [append_cons] at found
    rw [tree.nested place name (ih found)]
    exact Option.some_ne_none _

theorem visit_of_resolved (resolved : Resolved tree (place ++ [name])) :
    tree.visit follow place name = .ok (place ++ [name]) := by
  have proper := resolved.names name (by simp)
  have noLink := resolved.links _ prefix_rfl
  unfold visit
  rw [if_neg (fun either => either.elim proper.ne_nil proper.ne_current),
    if_neg proper.ne_parent, if_neg proper.not_null]
  split
  · case _ target isLink => exact absurd isLink (noLink target)
  · rfl

theorem realPath_of_resolved {levels : Nat} (place : Place)
    (resolved : Resolved tree (place ++ names)) :
    tree.realPath (levels + 1) place names = .ok (place ++ names) := by
  unfold realPath
  induction names generalizing place with
  | nil => rw [append_nil]; rfl
  | cons name rest ih =>
    rw [append_cons] at resolved ⊢
    rw [foldlM_cons, visit_of_resolved (resolved.of_prefix (prefix_append _ rest))]
    exact ih _ resolved

theorem leadsWith_of_resolved {follow : Place → List Name → Option Place} (place : Place)
    (resolved : Resolved tree (place ++ names))
    (found : tree.entry place ≠ none) :
    tree.leadsWith follow place names =
      if tree.entry (place ++ names) = none then none else some (place ++ names) := by
  induction names generalizing place with
  | nil =>
    rw [append_nil, if_neg found]
    rfl
  | cons name rest ih =>
    rw [append_cons] at resolved ⊢
    have here := resolved.of_prefix (prefix_append (place ++ [name]) rest)
    have proper := here.names name (by simp)
    cases next : tree.entry (place ++ [name]) with
    | none =>
      have missing : tree.entry (place ++ [name] ++ rest) = none := by
        by_contra deeper
        exact entry_of_append deeper next
      rw [if_pos missing, leadsWith]
      by_cases inside : tree.entry place = some .directory
      · rw [if_neg (not_not.mpr inside),
          if_neg (fun either => either.elim proper.ne_nil proper.ne_current),
          if_neg proper.ne_parent, next]
      · rw [if_pos inside]
    | some entry =>
      have inside := tree.nested place name (by rw [next]; exact Option.some_ne_none _)
      rw [leadsWith, if_neg (not_not.mpr inside),
        if_neg (fun either => either.elim proper.ne_nil proper.ne_current),
        if_neg proper.ne_parent, next]
      have further := ih _ resolved (by rw [next]; exact Option.some_ne_none _)
      cases entry with
      | file | directory => exact further
      | link target => exact absurd next (here.links _ prefix_rfl target)

theorem leadsTo_of_resolved (links : Nat) (resolved : Resolved tree place) :
    tree.leadsTo links [] place = if tree.entry place = none then none else some place := by
  have found : tree.entry [] ≠ none := by
    rw [tree.root]
    exact Option.some_ne_none _
  cases links with
  | zero | succ => exact leadsWith_of_resolved [] resolved found

/-- What a walk that meets no links makes of a place: some of it is kept, and names of
the path follow. -/
def Follows (place : Place) (names : List Name) (reached : Place) : Prop :=
  ∃ kept pushed, reached = kept ++ pushed ∧ kept <+: place ∧ ∀ name ∈ pushed, name ∈ names

theorem Follows.mem_of_append {place base rest : Place}
    (follows : Follows place names (base ++ rest)) (shorter : place.length ≤ base.length) :
    ∀ name ∈ rest, name ∈ names := by
  obtain ⟨kept, pushed, same, before, member⟩ := follows
  have keptLength : kept.length ≤ base.length := Nat.le_trans before.length_le shorter
  intro name inRest
  have dropped : rest = pushed.drop (base.length - kept.length) := by
    have := congrArg (drop base.length) same
    rwa [drop_left, drop_append, drop_eq_nil_of_le keptLength, nil_append] at this
  rw [dropped] at inRest
  exact member name (mem_of_mem_drop inRest)

theorem visit_follows (follow : Place → List Name → Except WalkFault Place)
    {place reached : Place} (linkFree : LinkFree tree) (follows : Follows place names reached) :
    Ensures (tree.visit follow reached name) (Follows place (names ++ [name])) := by
  obtain ⟨kept, pushed, rfl, before, member⟩ := follows
  have wider : ∀ other ∈ pushed, other ∈ names ++ [name] :=
    fun other inside => mem_append_left _ (member other inside)
  refine .ite (fun _ => .ok ⟨kept, pushed, rfl, before, wider⟩) fun _ => ?_
  refine .ite (fun _ => .ok ?_) fun _ => ?_
  · rcases pushed.eq_nil_or_concat with rfl | ⟨earlier, last, rfl⟩
    · refine ⟨kept.dropLast, [], by simp, (List.dropLast_prefix kept).trans before, by simp⟩
    · refine ⟨kept, earlier, ?_, before, fun other inside => wider other (by simp [inside])⟩
      rw [concat_eq_append, ← append_assoc, dropLast_concat]
  · refine .ite (fun _ => .error _) fun _ => ?_
    split
    · case _ target isLink => exact absurd isLink (linkFree _ target)
    refine .ok ⟨kept, pushed ++ [name], by rw [append_assoc], before, ?_⟩
    intro other inside
    rcases mem_append.mp inside with earlier | last
    · exact wider other earlier
    · exact mem_append_right _ last

theorem realPath_follows (linkFree : LinkFree tree) (levels : Nat) (place : Place)
    (names : List Name) : Ensures (tree.realPath levels place names) (Follows place names) := by
  cases levels with
  | zero => exact .error _
  | succ levels =>
    have start : Follows place [] place := ⟨place, [], by simp, prefix_rfl, by simp⟩
    have every := Ensures.foldlM_passed (fun _ _ _ holds =>
      visit_follows (tree.realPath levels) linkFree holds) start names
    rwa [nil_append] at every

theorem visit_of_name (linkFree : LinkFree tree) (named : ¬ (name = [] ∨ name = currentName))
    (notParent : name ≠ parentName) :
    Ensures (tree.visit follow place name) fun reached => reached = place ++ [name] := by
  unfold visit
  rw [if_neg named, if_neg notParent]
  refine .ite (fun _ => .error _) fun _ => ?_
  split
  · case _ target isLink => exact absurd isLink (linkFree _ target)
  · exact .ok rfl

theorem realPath_of_names (linkFree : LinkFree tree) (levels : Nat) (place : Place)
    (names : List Name)
    (proper : ∀ name ∈ names, ¬ (name = [] ∨ name = currentName) ∧ name ≠ parentName) :
    Ensures (tree.realPath levels place names) fun reached => reached = place ++ names := by
  cases levels with
  | zero => exact .error _
  | succ levels =>
    unfold realPath
    induction names generalizing place with
    | nil => exact .ok (append_nil place).symm
    | cons name rest ih =>
      rw [forall_mem_cons] at proper
      rw [foldlM_cons, append_cons]
      refine .bind (visit_of_name linkFree proper.1.1 proper.1.2) fun reached same => ?_
      rw [same]
      exact ih (place ++ [name]) proper.2

end FileTree

end XFerry
