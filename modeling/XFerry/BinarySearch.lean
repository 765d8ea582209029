/-
Binary search for the largest number that fits, where whatever is smaller than a number
that fits does so too.
-/

import Mathlib

namespace XFerry.BinarySearch

section

variable (Fits : Nat → Prop) [DecidablePred Fits]

def largest (low high : Nat) : Nat :=
  if low < high then
    let middle := (low + high + 1) / 2
    if Fits middle then largest middle high else largest low (middle - 1)
  else low
termination_by high - low

variable {Fits} {low high : Nat}

section

variable (closed : ∀ smaller larger, smaller ≤ larger → Fits larger → Fits smaller)
include closed

theorem isGreatest_largest (lowFits : Fits low) (ordered : low ≤ high) :
    IsGreatest {number | number ≤ high ∧ Fits number} (largest Fits low high) := by
  fun_induction largest Fits low high with
  | case1 low high open_ middle middleFits ih => exact ih middleFits (by omega)
  | case2 low high open_ middle tooLarge ih =>
    have same : {number | number ≤ high ∧ Fits number} =
        {number | number ≤ middle - 1 ∧ Fits number} := by
      ext number
      constructor
      · rintro ⟨_, numberFits⟩
        refine ⟨?_, numberFits⟩
        by_contra beyond
        exact tooLarge (closed middle number (by omega) numberFits)
      · rintro ⟨below, numberFits⟩
        exact ⟨by omega, numberFits⟩
    rw [same]
    exact ih lowFits (by omega)
  | case3 low high closedRange =>
    refine ⟨⟨ordered, lowFits⟩, ?_⟩
    rintro number ⟨below, _⟩
    omega

theorem le_largest_iff
    (lowFits : Fits low) (ordered : low ≤ high) {number : Nat} (inRange : number ≤ high) :
    number ≤ largest Fits low high ↔ Fits number := by
  have greatest := isGreatest_largest closed lowFits ordered
  constructor
  · exact fun below => closed number _ below greatest.1.2
  · exact fun numberFits => greatest.2 ⟨inRange, numberFits⟩

end

end

end XFerry.BinarySearch
