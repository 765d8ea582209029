/-
What the parsers rely on of the operations on text: stripping, the first colon, the
lower case of ASCII names, and the reading of integers.
-/

import XFerry.Python.Text

namespace XFerry.Python

open List Unicode

variable {char : Char}

section Trim

variable {drops fewer : Char → Bool} {text before after : Text}

theorem trim_append_left (dropped : ∀ char ∈ before, drops char = true) :
    trim drops (before ++ text) = trim drops text := by
  rw [trim, dropWhile_append_of_pos dropped, trim]

theorem trim_append_right (dropped : ∀ char ∈ after, drops char = true) :
    trim drops (text ++ after) = trim drops text := by
  have reversed : ∀ char ∈ after.reverse, drops char = true :=
    fun char member => dropped char (mem_reverse.mp member)
  rw [trim, dropWhile_append]
  by_cases empty : (text.dropWhile drops).isEmpty = true
  · rw [if_pos empty, trim, isEmpty_iff.mp empty, dropWhile_eq_nil_iff.mpr dropped]
  · rw [if_neg empty, reverse_append, dropWhile_append_of_pos reversed, trim]

theorem trim_split (drops : Char → Bool) (text : Text) :
    ∃ before after, text = before ++ trim drops text ++ after ∧
      (∀ char ∈ before, drops char = true) ∧ ∀ char ∈ after, drops char = true := by
  refine ⟨text.takeWhile drops, ((text.dropWhile drops).reverse.takeWhile drops).reverse,
    ?_, ?_, ?_⟩
  · rw [trim, append_assoc, ← reverse_append, takeWhile_append_dropWhile,
      reverse_reverse, takeWhile_append_dropWhile]
  · exact fun char member => mem_takeWhile_imp member
  · exact fun char member => mem_takeWhile_imp (mem_reverse.mp member)

theorem trim_trim (included : ∀ char, fewer char = true → drops char = true) (text : Text) :
    trim drops (trim fewer text) = trim drops text := by
  obtain ⟨before, after, whole, droppedBefore, droppedAfter⟩ := trim_split fewer text
  conv_rhs => rw [whole]
  rw [trim_append_right fun char member => included char (droppedAfter char member),
    trim_append_left fun char member => included char (droppedBefore char member)]

theorem trim_eq_self (kept : ∀ char ∈ text, drops char = false) : trim drops text = text := by
  obtain ⟨before, after, whole, droppedBefore, droppedAfter⟩ := trim_split drops text
  have noBefore : before = [] := by
    apply eq_nil_iff_forall_not_mem.mpr
    intro char member
    have here := kept char (by rw [whole]; simp [member])
    rw [droppedBefore char member] at here
    cases here
  have noAfter : after = [] := by
    apply eq_nil_iff_forall_not_mem.mpr
    intro char member
    have here := kept char (by rw [whole]; simp [member])
    rw [droppedAfter char member] at here
    cases here
  rw [noBefore, noAfter, nil_append, append_nil] at whole
  exact whole.symm

theorem mem_trim (member : char ∈ text) (kept : drops char = false) : char ∈ trim drops text := by
  obtain ⟨before, after, whole, droppedBefore, droppedAfter⟩ := trim_split drops text
  rw [whole, mem_append, mem_append] at member
  rcases member with (inBefore | inside) | inAfter
  · rw [droppedBefore char inBefore] at kept
    cases kept
  · exact inside
  · rw [droppedAfter char inAfter] at kept
    cases kept

theorem trim_ne_nil_iff : trim drops text ≠ [] ↔ ∃ char ∈ text, drops char = false := by
  constructor
  · intro nonempty
    by_contra none_
    have all : ∀ char ∈ text, drops char = true := by
      intro char member
      by_contra kept
      exact none_ ⟨char, member, Bool.eq_false_iff.mpr kept⟩
    apply nonempty
    rw [trim, dropWhile_eq_nil_iff.mpr all]
    rfl
  · rintro ⟨char, member, kept⟩ empty
    have inside := mem_trim member kept
    rw [empty] at inside
    cases inside

theorem mem_trim_of_between {char left right : Char} (leftMember : left ∈ before)
    (leftKept : drops left = false) (rightMember : right ∈ after)
    (rightKept : drops right = false) : char ∈ trim drops (before ++ char :: after) := by
  have nonemptyLeft : ¬ (before.dropWhile drops).isEmpty = true := by
    intro empty
    have dropped := dropWhile_eq_nil_iff.mp (isEmpty_iff.mp empty) left leftMember
    rw [leftKept] at dropped
    cases dropped
  have nonemptyRight : ¬ (after.reverse.dropWhile drops).isEmpty = true := by
    intro empty
    have dropped := dropWhile_eq_nil_iff.mp (isEmpty_iff.mp empty) right
      (mem_reverse.mpr rightMember)
    rw [rightKept] at dropped
    cases dropped
  rw [trim, dropWhile_append, if_neg nonemptyLeft, reverse_append,
    reverse_cons, append_assoc, dropWhile_append, if_neg nonemptyRight]
  simp

end Trim

theorem splitColon_eq_some {line key value : Text} :
    splitColon line = some (key, value) ↔ line = key ++ ':' :: value ∧ ':' ∉ key := by
  constructor
  · intro found
    have joined := takeWhile_append_dropWhile (p := fun char => decide (char ≠ ':')) (l := line)
    have stops := head?_dropWhile_not (fun char => decide (char ≠ ':')) line
    unfold splitColon at found
    split at found
    · cases found
    rename_i colon after rest
    cases found
    rw [rest] at joined stops
    have isColon : colon = ':' := by simpa using stops
    constructor
    · rw [isColon] at joined
      exact joined.symm
    · intro member
      have passes := mem_takeWhile_imp member
      simp at passes
  · rintro ⟨rfl, absent⟩
    have passes : ∀ char ∈ key, decide (char ≠ ':') = true := by
      intro char member
      rw [decide_eq_true_iff]
      rintro rfl
      exact absent member
    simp only [splitColon, dropWhile_append_of_pos passes, takeWhile_append_of_pos passes]
    simp

theorem exists_splitSpace_append {front : Text} (noSpace : ' ' ∉ front) (rest : Text) :
    ∃ part parts, splitSpace (front ++ rest) = (front ++ part) :: parts := by
  induction front with
  | nil =>
    cases rest with
    | nil => exact ⟨[], [], rfl⟩
    | cons char rest =>
      rw [nil_append, splitSpace]
      split
      · exact ⟨[char], [], rfl⟩
      split
      · exact ⟨[], _, rfl⟩
      · exact ⟨_, _, rfl⟩
  | cons char front ih =>
    obtain ⟨part, parts, split⟩ := ih fun member => noSpace (mem_cons_of_mem _ member)
    have notSpace : char ≠ ' ' := by
      rintro rfl
      exact noSpace (mem_cons_self ..)
    refine ⟨part, parts, ?_⟩
    rw [cons_append, splitSpace, split]
    simp only [if_neg notSpace, cons_append]

theorem splitSpace_append {front : Text} (noSpace : ' ' ∉ front) (rest : Text) :
    splitSpace (front ++ ' ' :: rest) = front :: splitSpace rest := by
  induction front with
  | nil =>
    rw [nil_append, splitSpace]
    cases split : splitSpace rest with
    | nil =>
      obtain ⟨part, parts, nonempty⟩ := exists_splitSpace_append not_mem_nil rest
      rw [nil_append, split] at nonempty
      cases nonempty
    | cons part parts => simp
  | cons char front ih =>
    have notSpace : char ≠ ' ' := by
      rintro rfl
      exact noSpace (mem_cons_self ..)
    rw [cons_append, splitSpace, ih fun member => noSpace (mem_cons_of_mem _ member)]
    simp only [if_neg notSpace]

theorem splitCrlf_of_not_mem {line : Text} (noReturn : '\r' ∉ line) : splitCrlf line = [line] := by
  induction line with
  | nil => rfl
  | cons char rest ih =>
    have later := ih fun member => noReturn (mem_cons_of_mem _ member)
    have notReturn : char ≠ '\r' := by
      rintro rfl
      exact noReturn (mem_cons_self ..)
    rw [splitCrlf.eq_3 _ _ (by intro _ isReturn; exact absurd isReturn notReturn), later]

def encodeAscii (text : Text) : Bytes := text.map fun char => UInt8.ofNat char.toNat

theorem toNat_ofNat_of_isAscii (ascii : IsAscii char) :
    (UInt8.ofNat char.toNat).toNat = char.toNat := by
  have small : char.toNat < 128 := ascii
  exact Nat.mod_eq_of_lt (by omega)

variable {text : Text}

theorem not_mem_encodeAscii (ascii : ∀ other ∈ text, IsAscii other)
    (isAscii : IsAscii char) (absent : char ∉ text) :
    UInt8.ofNat char.toNat ∉ encodeAscii text := by
  intro member
  obtain ⟨other, inText, same⟩ := mem_map.mp member
  have codes := congrArg UInt8.toNat same
  rw [toNat_ofNat_of_isAscii (ascii other inText), toNat_ofNat_of_isAscii isAscii] at codes
  exact absent (Char.toNat_inj.mp codes ▸ inText)

theorem mapM_id_map_some (text : Text) : (text.map some).mapM id = some text := by
  induction text with
  | nil => rfl
  | cons char rest ih =>
    rw [map_cons, mapM_cons, ih]
    rfl

theorem decode_encodeAscii (ascii : ∀ char ∈ text, IsAscii char) :
    decode (encodeAscii text) = some text := by
  have chars : decodeChars (encodeAscii text) = text.map some := by
    unfold decodeChars encodeAscii
    induction text with
    | nil => rfl
    | cons char rest ih =>
      have here := ascii char (mem_cons_self ..)
      have small : char.toNat < 0x80 := here
      have later := ih fun other member => ascii other (mem_cons_of_mem _ member)
      simp only [map_cons, Utf8.decodeFrom, Utf8.enter, toNat_ofNat_of_isAscii here,
        if_pos small, Char.ofNat_toNat, singleton_append, later]
  rw [decode, chars, mapM_id_map_some]

section Lower

variable (unicode : Unicode)

/-- No lower case that starts in ASCII comes from outside it, except `k` and `i`. -/
theorem isAscii_of_lowerAt_head {before after rest : Text} {char head : Char}
    (lowered : unicode.lowerAt before char after = head :: rest) (ascii : IsAscii head)
    (notK : head ≠ 'k') (notI : head ≠ 'i') : IsAscii char := by
  by_contra other
  obtain ⟨first, tail, same, kind⟩ := unicode.lowerAt_other before char after other
  rw [lowered] at same
  cases same
  rcases kind with isK | isI | notAscii
  · exact notK isK
  · exact notI isI
  · exact notAscii ascii

/-- A name that no lower case outside ASCII takes part in. -/
def Resolved (name : Text) : Prop := ∀ char ∈ name, IsAscii char ∧ char ≠ 'k' ∧ char ≠ 'i'

instance (name : Text) : Decidable (Resolved name) := by
  unfold Resolved
  infer_instance

theorem exists_lowerAt (before after : Text) (char : Char) :
    ∃ head tail, unicode.lowerAt before char after = head :: tail := by
  by_cases ascii : IsAscii char
  · exact ⟨char.toLower, [], unicode.lowerAt_ascii before char after ascii⟩
  · obtain ⟨head, tail, lowered, _⟩ := unicode.lowerAt_other before char after ascii
    exact ⟨head, tail, lowered⟩

theorem lowerFrom_prefix_iff {name : Text} (resolved : Resolved name) (before text : Text) :
    name <+: unicode.lowerFrom before text ↔
      ∃ head tail, text = head ++ tail ∧ head.map Char.toLower = name ∧
        ∀ char ∈ head, IsAscii char := by
  induction name generalizing before text with
  | nil => exact ⟨fun _ => ⟨[], text, rfl, rfl, by simp⟩, fun _ => nil_prefix⟩
  | cons letter name ih =>
    have letterKind := resolved letter (mem_cons_self ..)
    have resolvedRest : Resolved name :=
      fun char member => resolved char (mem_cons_of_mem _ member)
    cases text with
    | nil =>
      constructor
      · intro starts
        simp [lowerFrom] at starts
      · rintro ⟨head, tail, joined, lowered, _⟩
        have empty := (append_eq_nil_iff.mp joined.symm).1
        simp [empty] at lowered
    | cons char rest =>
      obtain ⟨first, more, lowered⟩ := exists_lowerAt unicode before rest char
      simp only [lowerFrom, lowered, cons_append, cons_prefix_cons]
      constructor
      · rintro ⟨same, starts⟩
        rw [← same] at lowered
        have ascii := isAscii_of_lowerAt_head unicode lowered letterKind.1 letterKind.2.1
          letterKind.2.2
        rw [unicode.lowerAt_ascii before char rest ascii] at lowered
        cases lowered
        obtain ⟨head, tail, joined, mapped, allAscii⟩ :=
          (ih resolvedRest (before ++ [char]) rest).mp starts
        refine ⟨char :: head, tail, by rw [joined]; rfl, by rw [← mapped]; rfl, ?_⟩
        intro other member
        rcases mem_cons.mp member with rfl | later
        · exact ascii
        · exact allAscii other later
      · rintro ⟨head, tail, joined, mapped, allAscii⟩
        cases head with
        | nil => cases mapped
        | cons front head =>
          cases joined
          simp only [map_cons, cons.injEq] at mapped
          have ascii := allAscii char (mem_cons_self ..)
          rw [unicode.lowerAt_ascii before char _ ascii] at lowered
          cases lowered
          refine ⟨mapped.1.symm, ?_⟩
          exact (ih resolvedRest _ _).mpr ⟨head, tail, rfl, mapped.2,
            fun other member => allAscii other (mem_cons_of_mem _ member)⟩

theorem lowerFrom_ne_nil {before text : Text} (nonempty : text ≠ []) :
    unicode.lowerFrom before text ≠ [] := by
  cases text with
  | nil => exact absurd rfl nonempty
  | cons char rest =>
    obtain ⟨head, tail, lowered⟩ := exists_lowerAt unicode before rest char
    simp [lowerFrom, lowered]

theorem lowerFrom_of_ascii {before text : Text} (ascii : ∀ char ∈ text, IsAscii char) :
    ∀ rest, unicode.lowerFrom before (text ++ rest) =
      text.map Char.toLower ++ unicode.lowerFrom (before ++ text) rest := by
  intro rest
  induction text generalizing before with
  | nil => simp
  | cons char more ih =>
    have here := ascii char (mem_cons_self ..)
    rw [cons_append, lowerFrom, unicode.lowerAt_ascii before char _ here,
      ih fun other member => ascii other (mem_cons_of_mem _ member)]
    simp

theorem lower_eq_iff {name text : Text} (resolved : Resolved name) :
    unicode.lower text = name ↔ text.map Char.toLower = name ∧ ∀ char ∈ text, IsAscii char := by
  constructor
  · intro lowered
    have starts : name <+: unicode.lowerFrom [] text := by
      rw [← lowered]
      exact prefix_rfl
    obtain ⟨head, tail, rfl, mapped, ascii⟩ :=
      (lowerFrom_prefix_iff unicode resolved [] text).mp starts
    rw [lower, lowerFrom_of_ascii unicode ascii, mapped] at lowered
    have nothing : unicode.lowerFrom ([] ++ head) tail = [] := by
      have lengths := congrArg length lowered
      rw [length_append] at lengths
      exact length_eq_zero_iff.mp (by omega)
    have empty : tail = [] := by
      by_contra nonempty
      exact lowerFrom_ne_nil unicode nonempty nothing
    rw [empty, append_nil]
    exact ⟨mapped, ascii⟩
  · rintro ⟨mapped, ascii⟩
    have whole : unicode.lowerFrom [] (text ++ []) =
        text.map Char.toLower ++ unicode.lowerFrom ([] ++ text) [] :=
      lowerFrom_of_ascii unicode ascii []
    rw [append_nil, mapped] at whole
    rw [lower, whole]
    simp [lowerFrom]

end Lower

/-- A non-empty string of ASCII decimal digits. -/
def IsDecimal (text : Text) : Prop := text ≠ [] ∧ ∀ char ∈ text, Between '0' '9' char

instance (text : Text) : Decidable (IsDecimal text) := by
  unfold IsDecimal
  infer_instance

def digitsOf (text : Text) : List Nat := text.map fun char => char.toNat - '0'.toNat

section Int

variable (unicode : Unicode)

theorem strip_strip (text : Text) : unicode.strip (unicode.strip text) = unicode.strip text :=
  trim_trim (fun _ space => space) text

theorem int_strip (text : Text) : unicode.int (unicode.strip text) = unicode.int text := by
  rw [int, strip_strip, int]

theorem int_nil : unicode.int [] = none := rfl

theorem decimal_space : unicode.decimal ' ' = none := by
  rw [unicode.decimal_ascii ' ' (by decide), if_neg (by decide)]

theorem isSpace_space : unicode.isSpace ' ' = true :=
  (unicode.isSpace_ascii ' ' (by decide)).mpr (by decide)

theorem digitRun_of_decimal (decimal : ∀ char ∈ text, Between '0' '9' char)
    {afterDigit : Bool} (nonempty : text ≠ [] ∨ afterDigit = true) :
    unicode.digitRun afterDigit text = some (digitsOf text) := by
  induction text generalizing afterDigit with
  | nil =>
    have after : afterDigit = true := by simpa using nonempty
    rw [digitRun, if_pos after]
    rfl
  | cons char rest ih =>
    have digit := decimal char (mem_cons_self ..)
    have ascii : IsAscii char := by
      have upper : char.toNat ≤ 57 := digit.2
      unfold IsAscii
      omega
    rw [digitRun, unicode.decimal_ascii char ascii, if_pos digit]
    rw [ih (fun other member => decimal other (mem_cons_of_mem _ member)) (Or.inr rfl)]
    rfl

theorem isSpace_of_digit (digit : Between '0' '9' char) : unicode.isSpace char = false := by
  have lower : 48 ≤ char.toNat := digit.1
  have upper : char.toNat ≤ 57 := digit.2
  have ascii : IsAscii char := by
    unfold IsAscii
    omega
  rw [Bool.eq_false_iff]
  intro space
  rcases (unicode.isSpace_ascii char ascii).mp space with low | high
  · have below : char.toNat ≤ 13 := low.2
    omega
  · have below : char.toNat ≤ 32 := high.2
    omega

theorem int_of_isDecimal (decimal : IsDecimal text) :
    unicode.int text =
      if maxStrDigits < text.length then none else some (Int.ofNat (ofDigits (digitsOf text))) := by
  have stripped : unicode.strip text = text :=
    trim_eq_self fun char member => isSpace_of_digit unicode (decimal.2 char member)
  have unsigned : unicode.unsignedInt text =
      if maxStrDigits < text.length then none else some (ofDigits (digitsOf text)) := by
    rw [unsignedInt, digitRun_of_decimal unicode decimal.2 (Or.inl decimal.1)]
    simp only [digitsOf, length_map]
  rw [int, stripped]
  split
  · case h_1 digits =>
    exact absurd (decimal.2 '+' (mem_cons_self ..)) (by decide)
  · case h_2 digits =>
    exact absurd (decimal.2 '-' (mem_cons_self ..)) (by decide)
  · rw [unsigned]
    split <;> rfl

/-- The numerals that `int` reads, without sign and surrounding space: decimal digits of any
script, single underscores between them. -/
inductive DigitText : Text → List Nat → Prop where
  | last {char : Char} {digit : Nat} (decimal : unicode.decimal char = some digit) :
      DigitText [char] [digit]
  | digit {char : Char} {digit : Nat} {text : Text} {digits : List Nat}
      (decimal : unicode.decimal char = some digit) (rest : DigitText text digits) :
      DigitText (char :: text) (digit :: digits)
  | underscore {char : Char} {digit : Nat} {text : Text} {digits : List Nat}
      (decimal : unicode.decimal char = some digit) (rest : DigitText text digits) :
      DigitText (char :: '_' :: text) (digit :: digits)

structure IsNumeral (value : Text) (number : Nat) : Prop where
  written : ∃ sign text digits, unicode.strip value = sign ++ text ∧
    DigitText unicode text digits ∧ digits.length ≤ maxStrDigits ∧ ofDigits digits = number ∧
    (sign = [] ∨ sign = ['+'] ∨ sign = ['-'] ∧ number = 0)

theorem decimal_eq_none {char : Char} (ascii : IsAscii char) (other : ¬ Between '0' '9' char) :
    unicode.decimal char = none := by
  rw [unicode.decimal_ascii char ascii, if_neg other]

variable {unicode}

theorem DigitText.ne_nil {digits : List Nat} (numeral : DigitText unicode text digits) :
    text ≠ [] := by
  cases numeral <;> exact cons_ne_nil _ _

theorem DigitText.not_cons {digits : List Nat} (missing : unicode.decimal char = none) :
    ¬ DigitText unicode (char :: text) digits := by
  intro numeral
  cases numeral with
  | last decimal | digit decimal | underscore decimal => rw [missing] at decimal; cases decimal

theorem DigitText.of_mem {digits : List Nat} (numeral : DigitText unicode text digits)
    (member : char ∈ text) : char = '_' ∨ ∃ digit, unicode.decimal char = some digit := by
  induction numeral with
  | last decimal =>
    rw [mem_singleton.mp member]
    exact .inr ⟨_, decimal⟩
  | digit decimal rest ih =>
    rcases mem_cons.mp member with rfl | later
    · exact .inr ⟨_, decimal⟩
    · exact ih later
  | underscore decimal rest ih =>
    rcases mem_cons.mp member with rfl | later
    · exact .inr ⟨_, decimal⟩
    rcases mem_cons.mp later with rfl | later
    · exact .inl rfl
    · exact ih later

theorem digitRun_eq_some (text : Text) (digits : List Nat) :
    (unicode.digitRun false text = some digits ↔ DigitText unicode text digits) ∧
      (unicode.digitRun true text = some digits ↔ text = [] ∧ digits = [] ∨
        DigitText unicode text digits ∨
          ∃ rest, text = '_' :: rest ∧ DigitText unicode rest digits) := by
  have noDigit : unicode.decimal '_' = none := decimal_eq_none unicode (by decide) (by decide)
  induction text generalizing digits with
  | nil =>
    have never : ¬ DigitText unicode [] digits := fun numeral => numeral.ne_nil rfl
    simp [digitRun, never, eq_comm]
  | cons char rest ih =>
    cases decimal : unicode.decimal char with
    | none =>
      have never : ¬ DigitText unicode (char :: rest) digits := DigitText.not_cons decimal
      by_cases underscore : char = '_'
      · simp [digitRun, underscore, noDigit, (ih digits).1, DigitText.not_cons noDigit]
      · simp [digitRun, decimal, underscore, never]
    | some digit =>
      have other : char ≠ '_' := by
        rintro rfl
        rw [noDigit] at decimal
        cases decimal
      have here : (unicode.digitRun true rest).map (digit :: ·) = some digits ↔
          DigitText unicode (char :: rest) digits := by
        rw [Option.map_eq_some_iff]
        constructor
        · rintro ⟨more, read, rfl⟩
          rcases (ih more).2.mp read with ⟨rfl, rfl⟩ | numeral | ⟨after, rfl, numeral⟩
          · exact .last decimal
          · exact .digit decimal numeral
          · exact .underscore decimal numeral
        · intro numeral
          cases numeral with
          | last found =>
            rw [decimal] at found
            cases found
            exact ⟨[], (ih []).2.mpr (.inl ⟨rfl, rfl⟩), rfl⟩
          | digit found numeral =>
            rw [decimal] at found
            cases found
            exact ⟨_, (ih _).2.mpr (.inr (.inl numeral)), rfl⟩
          | underscore found numeral =>
            rw [decimal] at found
            cases found
            exact ⟨_, (ih _).2.mpr (.inr (.inr ⟨_, rfl, numeral⟩)), rfl⟩
      simp [digitRun, decimal, here, other]

theorem unsignedInt_eq_some {number : Nat} :
    unicode.unsignedInt text = some number ↔ ∃ digits, DigitText unicode text digits ∧
      digits.length ≤ maxStrDigits ∧ ofDigits digits = number := by
  unfold unsignedInt
  constructor
  · intro read
    split at read
    · cases read
    rename_i digits found
    split at read
    · cases read
    · cases read
      exact ⟨digits, (digitRun_eq_some text digits).1.mp found, by omega, rfl⟩
  · rintro ⟨digits, numeral, short, rfl⟩
    rw [(digitRun_eq_some text digits).1.mpr numeral]
    exact if_neg (by omega)

theorem unsignedInt_eq_none (member : ' ' ∈ text) : unicode.unsignedInt text = none := by
  rw [Option.eq_none_iff_forall_ne_some]
  intro number read
  obtain ⟨digits, numeral, _⟩ := unsignedInt_eq_some.mp read
  rcases numeral.of_mem member with other | ⟨digit, decimal⟩
  · exact absurd other (by decide)
  · rw [decimal_space] at decimal
    cases decimal

theorem int_eq_none (member : ' ' ∈ unicode.strip text) : unicode.int text = none := by
  unfold int
  split
  · case h_1 digits literal =>
    rw [literal] at member
    have inside : ' ' ∈ digits := by simpa using member
    rw [unsignedInt_eq_none inside]
    rfl
  · case h_2 digits literal =>
    rw [literal] at member
    have inside : ' ' ∈ digits := by simpa using member
    rw [unsignedInt_eq_none inside]
    rfl
  · rw [unsignedInt_eq_none member]
    rfl

/-- `int` reads a natural number from its numerals and from nothing else. -/
theorem int_eq_some_iff {value : Text} {number : Nat} :
    unicode.int value = some (number : Int) ↔ IsNumeral unicode value number := by
  have noPlus : unicode.decimal '+' = none := decimal_eq_none unicode (by decide) (by decide)
  have noMinus : unicode.decimal '-' = none := decimal_eq_none unicode (by decide) (by decide)
  unfold int
  constructor
  · intro read
    split at read
    · case h_1 literal =>
      obtain ⟨value, unsigned, same⟩ := Option.map_eq_some_iff.mp read
      obtain ⟨digits, numeral, short, rfl⟩ := unsignedInt_eq_some.mp unsigned
      exact ⟨['+'], _, digits, literal, numeral, short, Int.ofNat_inj.mp same, by simp⟩
    · case h_2 literal =>
      obtain ⟨value, unsigned, same⟩ := Option.map_eq_some_iff.mp read
      obtain ⟨digits, numeral, short, rfl⟩ := unsignedInt_eq_some.mp unsigned
      have zero : ofDigits digits = number ∧ number = 0 := by
        simp only [Int.ofNat_eq_natCast] at same
        omega
      exact ⟨['-'], _, digits, literal, numeral, short, zero.1, by simp [zero.2]⟩
    · obtain ⟨value, unsigned, same⟩ := Option.map_eq_some_iff.mp read
      obtain ⟨digits, numeral, short, rfl⟩ := unsignedInt_eq_some.mp unsigned
      exact ⟨[], _, digits, rfl, numeral, short, Int.ofNat_inj.mp same, by simp⟩
  · rintro ⟨sign, text, digits, written, numeral, short, rfl, signed⟩
    have unsigned : unicode.unsignedInt text = some (ofDigits digits) :=
      unsignedInt_eq_some.mpr ⟨digits, numeral, short, rfl⟩
    rw [written]
    rcases signed with rfl | rfl | ⟨rfl, zero⟩
    · rw [nil_append]
      split
      · exact absurd numeral (DigitText.not_cons noPlus)
      · exact absurd numeral (DigitText.not_cons noMinus)
      · rw [unsigned]
        rfl
    · simp only [singleton_append, unsigned]
      rfl
    · simp only [singleton_append, unsigned, zero]
      rfl

theorem ofDigits_eq (digits : List Nat) : ofDigits digits = Nat.ofDigits 10 digits.reverse := by
  rw [Nat.ofDigits_eq_foldr, foldr_reverse, ofDigits]
  congr 1
  funext value digit
  rw [Nat.cast_id, Nat.add_comm]

theorem eq_of_ofDigits_eq {value other : Text} (decimal : IsDecimal value)
    (decimal' : IsDecimal other) (sameLength : value.length = other.length)
    (same : ofDigits (digitsOf value) = ofDigits (digitsOf other)) : value = other := by
  have below {text : Text} (decimal : IsDecimal text) :
      ∀ digit ∈ (digitsOf text).reverse, digit < 10 := by
    intro digit member
    obtain ⟨char, inText, rfl⟩ := mem_map.mp (mem_reverse.mp member)
    have upper : char.toNat ≤ 57 := (decimal.2 char inText).2
    change char.toNat - 48 < 10
    omega
  rw [ofDigits_eq, ofDigits_eq] at same
  have digits : digitsOf value = digitsOf other :=
    reverse_injective (Nat.ofDigits_inj_of_len_eq (by decide) (by simp [digitsOf, sameLength])
      (below decimal) (below decimal') same)
  have spelled {text : Text} (decimal : IsDecimal text) :
      (digitsOf text).map (fun digit => Char.ofNat (digit + '0'.toNat)) = text := by
    rw [digitsOf, map_map]
    conv_rhs => rw [← map_id text]
    apply map_congr_left
    intro char member
    have lower : '0'.toNat ≤ char.toNat := (decimal.2 char member).1
    rw [Function.comp_apply, Nat.sub_add_cancel lower, Char.ofNat_toNat, id]
  rw [← spelled decimal, digits, spelled decimal']

end Int

end XFerry.Python
