import Mathlib.Tactic.Common

/-!
# Bisection

A search between two bounds for the greatest number that passes a test which
may fail to answer.  The number that is found has passed, if it is not the
lower bound, and the one above it has not, if it is not the upper bound
(`search_spec`); nothing is asked of the test for this.  Where whatever is
below a number that passes does so too, no number above the one that is found
passes.
-/

namespace Runa.Search.Bisection

universe u

variable {ε : Type u}

/-- The middle, rounded up. -/
def middle (lo hi : Nat) : Nat :=
  lo + (hi - lo + 1) / 2

theorem lt_middle {lo hi : Nat} (more : lo < hi) : lo < middle lo hi := by
  rw [middle]
  omega

theorem middle_le {lo hi : Nat} (more : lo < hi) : middle lo hi ≤ hi := by
  rw [middle]
  omega

def search (test : Nat → Except ε Bool) (lo hi : Nat) : Except ε Nat :=
  if _more : lo < hi then
    match test (middle lo hi) with
    | .error error => .error error
    | .ok true => search test (middle lo hi) hi
    | .ok false => search test lo (middle lo hi - 1)
  else .ok lo
termination_by hi - lo
decreasing_by
  · exact Nat.sub_lt_sub_left _more (lt_middle _more)
  · have above := lt_middle _more
    have within := middle_le _more
    omega

variable {test : Nat → Except ε Bool} {lo hi found : Nat}

/-- The search has an end, and a number at it, where the test answers. -/
theorem search_ok
    (answers : ∀ n, lo < n → n ≤ hi → ∃ answer, test n = .ok answer) :
    ∃ found, search test lo hi = .ok found := by
  fun_induction search test lo hi with
  | case1 lo hi more error failed =>
      rcases answers (middle lo hi) (lt_middle more) (middle_le more) with
        ⟨answer, here⟩
      rw [here] at failed
      cases failed
  | case2 lo hi more passed induction =>
      exact induction fun n above within =>
        answers n (Nat.lt_trans (lt_middle more) above) within
  | case3 lo hi more refused induction =>
      have within := middle_le more
      exact induction fun n above below => answers n above (by omega)
  | case4 lo hi none => exact ⟨lo, rfl⟩

/-- What is found has passed, and what is above it has not. -/
theorem search_spec (ordered : lo ≤ hi)
    (ends : search test lo hi = .ok found) :
    (lo ≤ found ∧ found ≤ hi) ∧ (found ≠ lo → test found = .ok true) ∧
      (found ≠ hi → test (found + 1) = .ok false) := by
  fun_induction search test lo hi with
  | case1 => cases ends
  | case2 lo hi more passed induction =>
      rcases induction (middle_le more) ends with
        ⟨⟨least, most⟩, below, above⟩
      refine ⟨⟨Nat.le_trans (Nat.le_of_lt (lt_middle more)) least, most⟩,
        fun _ => ?_, above⟩
      by_cases same : found = middle lo hi
      · rw [same]
        exact passed
      · exact below same
  | case3 lo hi more refused induction =>
      have after := lt_middle more
      have within := middle_le more
      rcases induction (by omega) ends with ⟨⟨least, most⟩, below, above⟩
      refine ⟨⟨least, by omega⟩, below, fun _ => ?_⟩
      by_cases same : found = middle lo hi - 1
      · rw [same, Nat.sub_add_cancel (by omega)]
        exact refused
      · exact above same
  | case4 lo hi none =>
      cases ends
      exact ⟨⟨Nat.le_refl _, ordered⟩, fun apart => absurd rfl apart,
        fun apart => absurd (by omega) apart⟩

/-- No number of the range above the one that is found passes. -/
theorem search_greatest (ordered : lo ≤ hi)
    (ends : search test lo hi = .ok found)
    (down : ∀ small large, lo < small → small ≤ large → large ≤ hi →
      test large = .ok true → test small = .ok true)
    {n : Nat} (above : found < n) (within : n ≤ hi) :
    test n ≠ .ok true := by
  intro passes
  rcases search_spec ordered ends with ⟨⟨least, -⟩, -, refused⟩
  have next := down (found + 1) n (by omega) above within passes
  rw [refused (by omega)] at next
  cases next

end Runa.Search.Bisection
