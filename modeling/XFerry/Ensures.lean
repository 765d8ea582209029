/-
Postconditions of computations that can fail: what holds of the result, if there is
one.
-/

import Mathlib

namespace XFerry

variable {ε α β : Type}

def Ensures (computation : Except ε α) (post : α → Prop) : Prop :=
  ∀ result, computation = .ok result → post result

namespace Ensures

variable {post : α → Prop} {result : α}

theorem ok (holds : post result) : Ensures (.ok result : Except ε α) post := by
  intro other same
  cases same
  exact holds

theorem error (failure : ε) : Ensures (.error failure) post := by
  intro result same
  cases same

variable {computation : Except ε α}

theorem bind_of_ok (computed : computation = .ok result)
    (next : α → Except ε β) : computation >>= next = next result := by
  rw [computed]
  rfl

variable {next : α → Except ε β}

theorem bind_eq
    {final : Except ε β} (computed : computation = .ok result) (rest : next result = final) :
    computation >>= next = final := by
  rw [bind_of_ok computed, rest]

theorem bind_eq_ok {result : β} :
    computation >>= next = .ok result ↔
      ∃ value, computation = .ok value ∧ next value = .ok result := by
  cases computation with
  | error failure =>
    constructor
    · rintro ⟨⟩
    · rintro ⟨_, ⟨⟩, _⟩
  | ok value =>
    constructor
    · exact fun computed => ⟨value, rfl, computed⟩
    · rintro ⟨_, ⟨⟩, computed⟩
      exact computed

theorem exists_of_map_eq_ok {change : α → β} {result : β}
    (mapped : computation.map change = .ok result) :
    ∃ value, computation = .ok value ∧ change value = result := by
  cases computation with
  | error failure => cases mapped
  | ok value => exact ⟨value, rfl, Except.ok.inj mapped⟩

theorem imp {weaker : α → Prop} (holds : Ensures computation post)
    (implies : ∀ result, post result → weaker result) : Ensures computation weaker :=
  fun result same => implies result (holds result same)

theorem bind {final : β → Prop} (first : Ensures computation post)
    (rest : ∀ result, post result → Ensures (next result) final) :
    Ensures (computation >>= next) final := by
  cases computed : computation with
  | error failure => exact error failure
  | ok result => exact rest result (first result computed)

theorem andThen {final : β → Prop}
    (rest : ∀ result, Ensures (next result) final) : Ensures (computation >>= next) final :=
  bind (fun _ _ => trivial) fun result (_ : True) => rest result

variable {left right : Except ε α}

theorem ite {condition : Prop} [Decidable condition]
    (ifTrue : condition → Ensures left post) (ifFalse : ¬ condition → Ensures right post) :
    Ensures (if condition then left else right) post := by
  by_cases holds : condition
  · rw [if_pos holds]
    exact ifTrue holds
  · rw [if_neg holds]
    exact ifFalse holds

variable {step : β → α → Except ε β}

theorem foldlM_passed {holds : List α → β → Prop} (keeps : ∀ passed item value, holds passed value →
      Ensures (step value item) (holds (passed ++ [item])))
    {passed : List α} {start : β} (starts : holds passed start) (items : List α) :
    Ensures (items.foldlM step start) (holds (passed ++ items)) := by
  induction items generalizing passed start with
  | nil =>
    rw [List.append_nil]
    exact ok starts
  | cons item rest ih =>
    rw [List.foldlM_cons, List.append_cons]
    exact bind (keeps passed item start starts) fun value kept => ih kept

theorem foldlM {holds : β → Prop}
    (keeps : ∀ item value, holds value → Ensures (step value item) holds)
    {start : β} (starts : holds start) (items : List α) :
    Ensures (items.foldlM step start) holds :=
  @foldlM_passed ε α β step (fun _ => holds) (fun _ => keeps) [] start starts items

end Ensures

/-- What holds of the error, if there is one. -/
def FailsOnly (computation : Except ε α) (allowed : ε → Prop) : Prop :=
  ∀ failure, computation = .error failure → allowed failure

namespace FailsOnly

variable {allowed : ε → Prop}

theorem ok (result : α) : FailsOnly (.ok result : Except ε α) allowed := by
  intro failure same
  cases same

theorem error {failure : ε} (holds : allowed failure) :
    FailsOnly (.error failure : Except ε α) allowed := by
  intro other same
  cases same
  exact holds

theorem imp {weaker : ε → Prop} (holds : FailsOnly computation allowed)
    (implies : ∀ failure, allowed failure → weaker failure) : FailsOnly computation weaker :=
  fun failure same => implies failure (holds failure same)

theorem bind
    (first : FailsOnly computation allowed) (rest : ∀ result, FailsOnly (next result) allowed) :
    FailsOnly (computation >>= next) allowed := by
  cases computed : computation with
  | error failure => exact error (first failure computed)
  | ok result => exact rest result

theorem bind_iff :
    FailsOnly (computation >>= next) allowed ↔
      FailsOnly computation allowed ∧
        ∀ result, computation = .ok result → FailsOnly (next result) allowed := by
  cases computation with
  | error failure =>
    constructor
    · exact fun only => ⟨error (only failure rfl), nofun⟩
    · exact fun both => error (both.1 failure rfl)
  | ok result =>
    constructor
    · intro only
      refine ⟨ok result, ?_⟩
      rintro _ ⟨⟩
      exact only
    · exact fun both => both.2 result rfl

theorem ite {condition : Prop} [Decidable condition]
    (ifTrue : FailsOnly left allowed) (ifFalse : FailsOnly right allowed) :
    FailsOnly (if condition then left else right) allowed := by
  by_cases holds : condition
  · rw [if_pos holds]
    exact ifTrue
  · rw [if_neg holds]
    exact ifFalse

end FailsOnly

def Succeeds (computation : Except ε α) : Prop := ∃ result, computation = .ok result

namespace Succeeds

theorem ok (result : α) : Succeeds (.ok result : Except ε α) := ⟨result, rfl⟩

theorem not_error (failure : ε) : ¬ Succeeds (.error failure : Except ε α) := by
  rintro ⟨result, same⟩
  cases same

theorem bind_iff :
    Succeeds (computation >>= next) ↔ ∃ result, computation = .ok result ∧
      Succeeds (next result) := by
  cases computation with
  | error failure =>
    constructor
    · exact fun succeeds => absurd succeeds (not_error failure)
    · rintro ⟨result, same, _⟩
      cases same
  | ok result =>
    constructor
    · exact fun succeeds => ⟨result, rfl, succeeds⟩
    · rintro ⟨other, same, succeeds⟩
      cases same
      exact succeeds

end Succeeds

end XFerry
