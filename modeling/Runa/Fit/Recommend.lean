import Runa.Fit.CheckFit
import Mathlib.Data.List.Pairwise
import Mathlib.Data.List.Sort
import Mathlib.Data.Prod.Lex
import Mathlib.Order.Compare

/-!
# Recommendations

The embedding of `recommend` of `runa-fit/src/recommend.rs`: the entries of
the catalog for a use are probed, each in a thread of its own, what does not
fit drops out, and the best of the rest are picked.  `recommend_best` says
which these are.
-/

namespace Runa.Fit.Recommend

open Runa.Stream.Utf8
open Runa.Fit.CheckFit

/-! ## Ranking -/

/-- Below this a model fits but is slow to use. -/
def usableToksPerSec : Rat := 5

/-- A model of the catalog, as far as the ranking reads it. -/
structure CatalogEntry where
  name : Text
  uses : List Text
  tier : Nat
deriving DecidableEq, Repr

/-- A fitted entry of the catalog. -/
structure Pick where
  entry : CatalogEntry
  verdict : Verdict
  decodeToksPerSec : Rat
  estimated : Bool
deriving DecidableEq, Repr

def Pick.usable (pick : Pick) : Bool :=
  decide (usableToksPerSec ≤ pick.decodeToksPerSec)

/-- Usable speed first, then the quality tier, then the predicted speed. -/
def Pick.cmp (a b : Pick) : Ordering :=
  (compare b.usable a.usable).then
    ((compare b.entry.tier a.entry.tier).then
      (compare b.decodeToksPerSec a.decodeToksPerSec))

/-- Sorting leaves the two in this order. -/
def Before (a b : Pick) : Prop :=
  a.cmp b ≠ .gt

instance : DecidableRel Before :=
  fun a b => inferInstanceAs (Decidable (a.cmp b ≠ .gt))

/-- What a probe gave, or that it panicked. -/
def joined : Option (Except Text Pick) → Except Text Pick
  | some result => result
  | none => .error "probe panicked".toList

/-- The picks that fit, and the entries whose probes failed. -/
def sortOut : List (CatalogEntry × Except Text Pick) →
    List Pick × List (Text × Text)
  | [] => ([], [])
  | (entry, result) :: rest =>
      match result with
      | .ok pick =>
          if pick.verdict ≠ .noFit then
            (pick :: (sortOut rest).1, (sortOut rest).2)
          else sortOut rest
      | .error message =>
          ((sortOut rest).1, (entry.name, message) :: (sortOut rest).2)

section Recommending

variable (entries : List CatalogEntry) (use : Option Text) (top : Nat)
  (probe : CatalogEntry → Option (Except Text Pick))

/-- The entries for a use, or all of them. -/
def wanted : List CatalogEntry :=
  entries.filter fun entry =>
    use.all fun use => entry.uses.any fun other => other == use

/-- The best picks for a use, and the probes that failed. -/
def recommend : List Pick × List (Text × Text) :=
  let wanted := wanted entries use
  let results := wanted.map fun entry => joined (probe entry)
  let sorted := sortOut (wanted.zip results)
  ((sorted.1.insertionSort Before).take top, sorted.2)

end Recommending

/-! ## What the ranking means -/

/-- One pick is better than another: only it is usable, or both are alike in
this and it is of a higher tier, or of the same tier and faster. -/
def Better (a b : Pick) : Prop :=
  (b.usable = false ∧ a.usable = true) ∨
    b.usable = a.usable ∧
      (b.entry.tier < a.entry.tier ∨
        b.entry.tier = a.entry.tier ∧
          b.decodeToksPerSec < a.decodeToksPerSec)

instance : DecidableRel Better :=
  fun _ _ => inferInstanceAs (Decidable (_ ∨ _))

/-- The rank of a pick in one order. -/
def rank (pick : Pick) : Bool ×ₗ Nat ×ₗ Rat :=
  toLex (pick.usable, toLex (pick.entry.tier, pick.decodeToksPerSec))

theorem better_iff_rank (a b : Pick) : Better a b ↔ rank b < rank a := by
  rw [rank, rank, Prod.Lex.toLex_lt_toLex, Prod.Lex.toLex_lt_toLex,
    Bool.lt_iff]
  exact Iff.rfl

theorem cmp_eq_gt_iff (a b : Pick) : a.cmp b = .gt ↔ Better b a := by
  rw [Pick.cmp, Ordering.then_eq_gt, Ordering.then_eq_gt, Better,
    compare_gt_iff_gt, compare_gt_iff_gt, compare_gt_iff_gt,
    compare_eq_iff_eq, compare_eq_iff_eq, Bool.lt_iff,
    @eq_comm Bool b.usable a.usable,
    @eq_comm Nat b.entry.tier]

theorem before_iff (a b : Pick) : Before a b ↔ ¬ Better b a :=
  not_congr (cmp_eq_gt_iff a b)

theorem before_iff_rank (a b : Pick) : Before a b ↔ rank b ≤ rank a := by
  rw [before_iff, better_iff_rank, not_lt]

instance : IsTrans Pick Before where
  trans a b c := by
    rw [before_iff_rank, before_iff_rank, before_iff_rank]
    exact fun first second => second.trans first

instance : Std.Total Before where
  total a b := by
    rw [before_iff_rank, before_iff_rank]
    exact le_total _ _

/-! ## What is recommended -/

/-- The pick of an entry whose probe says that it fits. -/
def fits (probe : CatalogEntry → Option (Except Text Pick))
    (entry : CatalogEntry) : Option Pick :=
  match joined (probe entry) with
  | .ok pick => if pick.verdict ≠ .noFit then some pick else none
  | .error _ => none

/-- The name of an entry whose probe failed, and why it did. -/
def fails (probe : CatalogEntry → Option (Except Text Pick))
    (entry : CatalogEntry) : Option (Text × Text) :=
  match joined (probe entry) with
  | .ok _ => none
  | .error message => some (entry.name, message)

/-- Picks are the best `top` of others: they stand in the order of their
ranks, those of a rank as they stood before, and nothing that is left out is
better than one of them. -/
structure BestOf (among : List Pick) (top : Nat) (picks : List Pick) :
    Prop where
  length : picks.length = min top among.length
  rest : ∃ left : List Pick,
    (picks ++ left).Perm among ∧
      (picks ++ left).Pairwise (fun a b => ¬ Better b a) ∧
      ∀ a b, [a, b].Sublist among → ¬ Better b a →
        [a, b].Sublist (picks ++ left)

theorem sortOut_zip (probe : CatalogEntry → Option (Except Text Pick))
    (entries : List CatalogEntry) :
    sortOut (entries.zip (entries.map fun entry => joined (probe entry))) =
      (entries.filterMap (fits probe), entries.filterMap (fails probe)) := by
  induction entries with
  | nil => rfl
  | cons entry entries ih =>
      cases result : joined (probe entry) with
      | ok pick =>
          by_cases fit : pick.verdict = .noFit
          · simp [sortOut, fits, fails, result, fit, ih]
          · simp [sortOut, fits, fails, result, fit, ih]
      | error message =>
          simp [sortOut, fits, fails, result, ih]

section Best

variable (entries : List CatalogEntry) (use : Option Text) (top : Nat)
  (probe : CatalogEntry → Option (Except Text Pick))

theorem recommend_eq :
    recommend entries use top probe =
      ((((wanted entries use).filterMap (fits probe)).insertionSort
          Before).take top,
        (wanted entries use).filterMap (fails probe)) := by
  simp only [recommend, sortOut_zip]

theorem bestOf_take (among : List Pick) :
    BestOf among top ((among.insertionSort Before).take top) where
  length := by
    rw [List.length_take, List.length_insertionSort]
  rest := by
    refine ⟨(among.insertionSort Before).drop top, ?_, ?_, ?_⟩
    · rw [List.take_append_drop]
      exact List.perm_insertionSort Before among
    · rw [List.take_append_drop]
      exact (List.pairwise_insertionSort Before among).imp
        fun before => (before_iff _ _).mp before
    · intro a b stand notBetter
      rw [List.take_append_drop]
      exact List.pair_sublist_insertionSort
        ((before_iff a b).mpr notBetter) stand

/-- Picks of which always one is better have one order. -/
theorem insertionSort_perm {among other : List Pick}
    (same : other.Perm among)
    (ranked : among.Pairwise fun a b => Better a b ∨ Better b a) :
    other.insertionSort Before = among.insertionSort Before := by
  have perm := ((List.perm_insertionSort Before other).trans same).trans
    (List.perm_insertionSort Before among).symm
  apply perm.eq_of_pairwise _
    (List.pairwise_insertionSort Before other)
    (List.pairwise_insertionSort Before among)
  intro a b inOther inAmong first second
  by_contra differ
  have symm : Std.Symm fun a b => Better a b ∨ Better b a :=
    ⟨fun _ _ => Or.symm⟩
  have both : Better a b ∨ Better b a :=
    ranked.forall
      (same.mem_iff.mp ((List.mem_insertionSort Before).mp inOther))
      ((List.mem_insertionSort Before).mp inAmong) differ
  rcases both with better | better
  · exact (before_iff b a).mp second better
  · exact (before_iff a b).mp first better

/-- What is recommended are the best picks for the use that fit, the failures
are all that there were, a longer list begins with a shorter one, and the
order of the catalog is of no account unless two picks have the same rank. -/
theorem recommend_best :
    BestOf ((wanted entries use).filterMap (fits probe)) top
      (recommend entries use top probe).1 ∧
    (recommend entries use top probe).2 =
      (wanted entries use).filterMap (fails probe) ∧
    (∀ more, (recommend entries use top probe).1 <+:
      (recommend entries use (top + more) probe).1) ∧
    ∀ other : List CatalogEntry, other.Perm entries →
      ((wanted entries use).filterMap (fits probe)).Pairwise
        (fun a b => Better a b ∨ Better b a) →
      (recommend other use top probe).1 =
        (recommend entries use top probe).1 := by
  simp only [recommend_eq]
  refine ⟨bestOf_take top _, trivial, ?_, ?_⟩
  · intro more
    exact List.take_prefix_take_left (Nat.le_add_right top more)
  · intro other same ranked
    have wantedSame : (wanted other use).Perm (wanted entries use) :=
      same.filter _
    rw [insertionSort_perm (wantedSame.filterMap (fits probe)) ranked]

end Best

end Runa.Fit.Recommend
