/-
Amounts that many accounts hold of one resource, and their total.

Only finitely many accounts hold anything, so the accounts can be a whole type.
-/

import Mathlib

namespace XFerry

open Function

variable {ι : Type} {held : ι → Nat} {total : Nat}

def Totals (held : ι → Nat) (total : Nat) : Prop :=
  ∃ accounts : Finset ι, (∀ account, account ∉ accounts → held account = 0) ∧
    ∑ account ∈ accounts, held account = total

namespace Totals

theorem zero : Totals (fun _ : ι => 0) 0 := ⟨∅, fun _ _ => rfl, rfl⟩

theorem congr {others : ι → Nat} (totals : Totals held total)
    (same : ∀ account, others account = held account) : Totals others total := by
  have equal : others = held := funext same
  rw [equal]
  exact totals

theorem eq_zero (totals : Totals held total) (nothing : ∀ account, held account = 0) :
    total = 0 := by
  obtain ⟨accounts, _, sum⟩ := totals
  rw [← sum]
  exact Finset.sum_eq_zero fun account _ => nothing account

variable [DecidableEq ι]

section

variable (totals : Totals held total)
include totals

theorem sum_le (some : Finset ι) : ∑ account ∈ some, held account ≤ total := by
  obtain ⟨accounts, outside, sum⟩ := totals
  rw [← sum]
  calc
    ∑ account ∈ some, held account ≤ ∑ account ∈ some ∪ accounts, held account :=
      Finset.sum_le_sum_of_subset Finset.subset_union_left
    _ = ∑ account ∈ accounts, held account := by
      refine (Finset.sum_subset Finset.subset_union_right ?_).symm
      intro account _ notIn
      exact outside account notIn

theorem le (account : ι) : held account ≤ total := by
  have single := totals.sum_le {account}
  rwa [Finset.sum_singleton] at single

theorem card_le {some : Finset ι} (holding : ∀ account ∈ some, 0 < held account) :
    some.card ≤ total := by
  calc
    some.card = ∑ _account ∈ some, 1 := by simp
    _ ≤ ∑ account ∈ some, held account := Finset.sum_le_sum holding
    _ ≤ total := totals.sum_le some

theorem update (account : ι) (amount : Nat) :
    Totals (update held account amount) (total - held account + amount) := by
  obtain ⟨accounts, outside, sum⟩ := totals
  refine ⟨insert account accounts, ?_, ?_⟩
  · intro other notIn
    rw [Finset.mem_insert, not_or] at notIn
    rw [update_of_ne notIn.1]
    exact outside other notIn.2
  · have whole : ∑ other ∈ insert account accounts, held other = total := by
      rw [← sum]
      refine (Finset.sum_subset (Finset.subset_insert _ _) ?_).symm
      intro other _ notIn
      exact outside other notIn
    rw [Finset.sum_update_of_mem (Finset.mem_insert_self _ _)]
    rw [← Finset.sum_sdiff (Finset.singleton_subset_iff.mpr (Finset.mem_insert_self _ _)),
      Finset.sum_singleton] at whole
    omega

end

theorem updateState {State : Type} {amount : State → Nat} {states : ι → State}
    (totals : Totals (fun account => amount (states account)) total) (account : ι)
    (state : State) :
    Totals (fun other => amount (Function.update states account state other))
      (total - amount (states account) + amount state) := by
  refine (totals.update account (amount state)).congr ?_
  intro other
  by_cases same : other = account
  · rw [same, update_self, update_self]
  · rw [update_of_ne same, update_of_ne same]

end Totals

end XFerry
