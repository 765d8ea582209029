/-
`json.dumps` with `ensure_ascii=False`, compact separators and no numbers but texts.

A lone surrogate stays in the text, and the text then has no encoding.
-/

import XFerry.Json.Scanner
import XFerry.Python.Text

namespace XFerry.Json

open Python List

inductive Payload where
  | null
  | boolean (value : Bool)
  | number (text : Text)
  | string (value : Str)
  | list (items : List Payload)
  | dict (members : List (Str × Payload))

namespace Payload

def ofNat (value : Nat) : Payload := .number (Nat.toDigits 10 value)

def ofText (text : Text) : Payload := .string (str text)

def ofMembers (members : List (String × Payload)) : Payload :=
  .dict (members.map fun member => (str member.1.toList, member.2))

end Payload

def hexDigit (value : Nat) : Nat := if value < 10 then 48 + value else 87 + value

/-- `ESCAPE_DCT`. -/
def escapeUnit (code : Nat) : Str :=
  if code = 34 then [92, 34]
  else if code = 92 then [92, 92]
  else if code = 10 then [92, 110]
  else if code = 13 then [92, 114]
  else if code = 9 then [92, 116]
  else if code = 12 then [92, 102]
  else if code = 8 then [92, 98]
  else if code < 0x20 then [92, 117, 48, 48, hexDigit (code / 16), hexDigit (code % 16)]
  else [code]

def dumpString (value : Str) : Str := 34 :: (value.flatMap escapeUnit ++ [34])

mutual

def dumps : Payload → Str
  | .null => str "null".toList
  | .boolean true => str "true".toList
  | .boolean false => str "false".toList
  | .number text => str text
  | .string value => dumpString value
  | .list items => 91 :: (([44] : Str).intercalate (dumpItems items) ++ [93])
  | .dict members => 123 :: (([44] : Str).intercalate (dumpMembers members) ++ [125])

def dumpItems : List Payload → List Str
  | [] => []
  | item :: rest => dumps item :: dumpItems rest

def dumpMembers : List (Str × Payload) → List Str
  | [] => []
  | member :: rest => (dumpString member.1 ++ 58 :: dumps member.2) :: dumpMembers rest

end

/-- No code is a lone surrogate. -/
def HasEncoding (codes : Str) : Prop := ∀ code ∈ codes, isSurrogate code = false

instance (codes : Str) : Decidable (HasEncoding codes) := by
  unfold HasEncoding
  infer_instance

theorem hasEncoding_iff {codes : Str} : HasEncoding codes ↔ (encode codes).isSome = true :=
  encode_isSome.symm

theorem hasEncoding_append {left right : Str} :
    HasEncoding (left ++ right) ↔ HasEncoding left ∧ HasEncoding right := forall_mem_append

theorem hasEncoding_cons {code : Nat} {rest : Str} :
    HasEncoding (code :: rest) ↔ isSurrogate code = false ∧ HasEncoding rest := forall_mem_cons

theorem hasEncoding_nil : HasEncoding [] := forall_mem_nil _

theorem hasEncoding_str (text : Text) : HasEncoding (str text) :=
  hasEncoding_iff.mpr (encode_text text)

mutual

def Payload.HasEncoding : Payload → Prop
  | .null => True
  | .boolean _ => True
  | .number _ => True
  | .string value => Json.HasEncoding value
  | .list items => AllHaveEncoding items
  | .dict members => MembersHaveEncoding members

def Payload.AllHaveEncoding : List Payload → Prop
  | [] => True
  | item :: rest => item.HasEncoding ∧ AllHaveEncoding rest

def Payload.MembersHaveEncoding : List (Str × Payload) → Prop
  | [] => True
  | member :: rest => Json.HasEncoding member.1 ∧ member.2.HasEncoding ∧ MembersHaveEncoding rest

end

theorem isSurrogate_of_lt {code : Nat} (small : code < 0xD800) : isSurrogate code = false := by
  simp [isSurrogate]
  omega

theorem escapeUnit_hasEncoding (code : Nat) :
    HasEncoding (escapeUnit code) ↔ isSurrogate code = false := by
  have hex {value : Nat} (small : value < 16) : isSurrogate (hexDigit value) = false := by
    refine isSurrogate_of_lt ?_
    unfold hexDigit
    split_ifs <;> omega
  by_cases printed : 0x5D ≤ code
  · have plain : escapeUnit code = [code] := by
      unfold escapeUnit
      rw [if_neg (by omega), if_neg (by omega), if_neg (by omega), if_neg (by omega),
        if_neg (by omega), if_neg (by omega), if_neg (by omega), if_neg (by omega)]
    rw [plain, hasEncoding_cons]
    exact and_iff_left hasEncoding_nil
  · refine iff_of_true ?_ (isSurrogate_of_lt (by omega))
    intro unit member
    unfold escapeUnit at member
    split_ifs at member
    all_goals try (simp only [mem_cons, not_mem_nil, or_false] at member)
    all_goals try (exact isSurrogate_of_lt (by omega))
    rcases member with rfl | rfl | rfl | rfl | rfl | rfl
    · rfl
    · rfl
    · rfl
    · rfl
    · exact hex (by omega)
    · exact hex (by omega)

theorem dumpString_hasEncoding {value : Str} :
    HasEncoding (dumpString value) ↔ HasEncoding value := by
  rw [dumpString, hasEncoding_cons, hasEncoding_append]
  have quote : isSurrogate 34 = false := rfl
  have closing : HasEncoding [34] := by decide
  rw [and_iff_right quote, and_iff_left closing]
  induction value with
  | nil => exact iff_of_true hasEncoding_nil hasEncoding_nil
  | cons code rest ih =>
    rw [flatMap_cons, hasEncoding_append, hasEncoding_cons, escapeUnit_hasEncoding]
    exact and_congr_right fun _ => ih

theorem hasEncoding_bracketed {opening closing : Nat} (start : isSurrogate opening = false)
    (finish : isSurrogate closing = false) (parts : List Str) :
    HasEncoding (opening :: (([44] : Str).intercalate parts ++ [closing])) ↔
      ∀ part ∈ parts, HasEncoding part := by
  rw [hasEncoding_cons, hasEncoding_append, hasEncoding_cons, and_iff_right start]
  rw [and_iff_left (⟨finish, hasEncoding_nil⟩ : isSurrogate closing = false ∧ HasEncoding [])]
  induction parts with
  | nil => exact iff_of_true hasEncoding_nil (forall_mem_nil _)
  | cons part rest ih =>
    cases rest with
    | nil =>
      rw [intercalate_singleton]
      exact forall_mem_singleton.symm
    | cons next others =>
      rw [intercalate_cons_cons, hasEncoding_append, hasEncoding_append, ih,
        and_iff_left (by decide : HasEncoding [44])]
      exact forall_mem_cons.symm

mutual

theorem dumps_hasEncoding : ∀ payload : Payload, HasEncoding (dumps payload) ↔ payload.HasEncoding
  | .null => iff_of_true (hasEncoding_str _) trivial
  | .boolean true => iff_of_true (hasEncoding_str _) trivial
  | .boolean false => iff_of_true (hasEncoding_str _) trivial
  | .number text => iff_of_true (hasEncoding_str text) trivial
  | .string _ => dumpString_hasEncoding
  | .list items => (hasEncoding_bracketed rfl rfl _).trans (dumpItems_hasEncoding items)
  | .dict members => (hasEncoding_bracketed rfl rfl _).trans (dumpMembers_hasEncoding members)

theorem dumpItems_hasEncoding : ∀ items : List Payload,
    (∀ part ∈ dumpItems items, HasEncoding part) ↔ Payload.AllHaveEncoding items
  | [] => iff_of_true (forall_mem_nil _) trivial
  | item :: rest => by
      rw [dumpItems, forall_mem_cons, dumps_hasEncoding item, dumpItems_hasEncoding rest]
      rfl

theorem dumpMembers_hasEncoding : ∀ members : List (Str × Payload),
    (∀ part ∈ dumpMembers members, HasEncoding part) ↔ Payload.MembersHaveEncoding members
  | [] => iff_of_true (forall_mem_nil _) trivial
  | member :: rest => by
      rw [dumpMembers, forall_mem_cons, hasEncoding_append, hasEncoding_cons,
        dumpString_hasEncoding, dumps_hasEncoding member.2, dumpMembers_hasEncoding rest, and_assoc]
      exact and_congr_right fun _ => and_congr_left fun _ => and_iff_right rfl

end

theorem hasEncoding_dict {members : List (Str × Payload)} :
    (Payload.dict members).HasEncoding ↔
      ∀ member ∈ members, HasEncoding member.1 ∧ member.2.HasEncoding := by
  rw [Payload.HasEncoding]
  induction members with
  | nil => exact iff_of_true trivial (forall_mem_nil _)
  | cons member rest ih => rw [Payload.MembersHaveEncoding, ih, forall_mem_cons, and_assoc]

theorem hasEncoding_list {items : List Payload} :
    (Payload.list items).HasEncoding ↔ ∀ item ∈ items, item.HasEncoding := by
  rw [Payload.HasEncoding]
  induction items with
  | nil => exact iff_of_true trivial (forall_mem_nil _)
  | cons item rest ih => rw [Payload.AllHaveEncoding, ih, forall_mem_cons]

theorem hasEncoding_ofMembers {members : List (String × Payload)} :
    (Payload.ofMembers members).HasEncoding ↔ ∀ member ∈ members, member.2.HasEncoding := by
  rw [Payload.ofMembers, hasEncoding_dict, forall_mem_map]
  exact forall₂_congr fun member _ => and_iff_right (hasEncoding_str _)

theorem hasEncoding_ofText (text : Text) : (Payload.ofText text).HasEncoding := hasEncoding_str text

end XFerry.Json
