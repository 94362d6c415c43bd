import Mathlib.Algebra.Order.Field.Basic
import Mathlib.Data.List.Sort
import Mathlib.Tactic.FieldSimp
import Mathlib.Tactic.Linarith

/-!
# A correction that is fed back

A quantity with a true ratio `target` to its estimate is corrected by the
median of the ratios that were observed so far, and each observation is made
against the corrected estimate.  The first observation is the target itself;
the second is one, because the estimate is right by then; and from there on
the median stays strictly between the two (`factor_settle_between`).  The
correction is therefore right after the first observation, and after no other
one unless the target is one (`factor_settle_eq_iff`).
-/

namespace Runa.Feedback.Median

variable {α : Type} [Field α] [LinearOrder α]

/-! ## The median -/

/-- The middle value, or the mean of the two middle ones. -/
def median (values : List α) : Option α :=
  let sorted := values.insertionSort (· ≤ ·)
  let mid := sorted.length / 2
  if values = [] then none
  else if sorted.length % 2 = 0 then do
    let below ← sorted[mid - 1]?
    let above ← sorted[mid]?
    return (below + above) / 2
  else sorted[mid]?

/-- Strictly between two values, in either order. -/
def Between (first second value : α) : Prop :=
  min first second < value ∧ value < max first second

section Order

variable [IsStrictOrderedRing α]

omit [IsStrictOrderedRing α] in
theorem median_singleton (value : α) : median [value] = some value := by
  simp [median]

theorem median_replicate {count : Nat} (positive : count ≠ 0) (value : α) :
    median (List.replicate count value) = some value := by
  have sorted :
      (List.replicate count value).insertionSort (· ≤ ·) =
        List.replicate count value := by
    apply List.Pairwise.insertionSort_eq
    exact List.pairwise_replicate.mpr (Or.inr le_rfl)
  have half : count / 2 < count := by omega
  have below : count / 2 - 1 < count := by omega
  have mean : (value + value) / 2 = value := by
    rw [← two_mul, mul_div_cancel_left₀ value two_ne_zero]
  simp [median, sorted, positive, half, below, mean]

omit [Field α] [IsStrictOrderedRing α] in
/-- The least and the greatest value stand at the ends. -/
theorem insertionSort_ends {values rest : List α} {low high : α}
    (listed : values.Perm (low :: high :: rest)) (order : low < high)
    (inside : ∀ value ∈ rest, low < value ∧ value < high) :
    values.insertionSort (· ≤ ·) =
      low :: (rest.insertionSort (· ≤ ·) ++ [high]) := by
  apply List.Perm.eq_of_pairwise' (r := (· ≤ ·))
  · exact List.pairwise_insertionSort _ values
  · rw [List.pairwise_cons, List.pairwise_append]
    refine ⟨?_, List.pairwise_insertionSort _ rest,
      List.pairwise_singleton _ _, ?_⟩
    · intro value member
      rcases List.mem_append.mp member with within | last
      · exact (inside value
          ((List.mem_insertionSort _).mp within)).1.le
      · rw [List.mem_singleton.mp last]
        exact order.le
    · intro value member last found
      rw [List.mem_singleton.mp found]
      exact (inside value ((List.mem_insertionSort _).mp member)).2.le
  · apply ((List.perm_insertionSort _ values).trans listed).trans
    apply List.Perm.cons
    have behind :=
      (List.perm_append_singleton high (rest.insertionSort (· ≤ ·)))
    exact ((List.perm_insertionSort _ rest).symm.cons high).trans
      behind.symm

omit [Field α] [IsStrictOrderedRing α] in
/-- Every value but the first and the last of a sorted list is inside. -/
theorem getElem?_inside {sorted : List α} {low high : α}
    (inside : ∀ value ∈ sorted, low < value ∧ value < high)
    (index : Nat) (positive : 0 < index) (bound : index ≤ sorted.length) :
    ∃ value, (low :: (sorted ++ [high]))[index]? = some value ∧
      low < value ∧ value < high := by
  obtain ⟨index, rfl⟩ : ∃ before, index = before + 1 :=
    ⟨index - 1, by omega⟩
  have within : index < sorted.length := by omega
  refine ⟨sorted[index], ?_, inside _ (List.getElem_mem within)⟩
  rw [List.getElem?_cons_succ, List.getElem?_append_left within,
    List.getElem?_eq_getElem within]

theorem median_between {values rest : List α} {low high : α}
    (listed : values.Perm (low :: high :: rest)) (order : low < high)
    (inside : ∀ value ∈ rest, low < value ∧ value < high) :
    ∃ middle, median values = some middle ∧ low < middle ∧
      middle < high := by
  have nonempty : values ≠ [] := by
    rintro rfl
    exact absurd listed.symm (List.not_perm_cons_nil)
  have sorted := insertionSort_ends listed order inside
  have within : ∀ value ∈ rest.insertionSort (· ≤ ·),
      low < value ∧ value < high := by
    intro value member
    exact inside value ((List.mem_insertionSort _).mp member)
  have length :
      (low :: (rest.insertionSort (· ≤ ·) ++ [high])).length =
        (rest.insertionSort (· ≤ ·)).length + 2 := by
    simp
  simp only [median, sorted, length, if_neg nonempty]
  generalize rest.insertionSort (· ≤ ·) = middle at within
  split_ifs with even
  · by_cases two : middle.length = 0
    · rw [List.length_eq_zero_iff] at two
      subst two
      refine ⟨(low + high) / 2, by simp, ?_, ?_⟩
      · linarith
      · linarith
    · obtain ⟨below, foundBelow, belowIn⟩ :=
        getElem?_inside within ((middle.length + 2) / 2 - 1) (by omega)
          (by omega)
      obtain ⟨above, foundAbove, aboveIn⟩ :=
        getElem?_inside within ((middle.length + 2) / 2) (by omega)
          (by omega)
      refine ⟨(below + above) / 2, ?_, ?_, ?_⟩
      · rw [foundBelow, foundAbove]
        rfl
      · linarith
      · linarith
  · exact getElem?_inside within _ (by omega) (by omega)

end Order

/-! ## The loop -/

/-- The correction by what was observed; none without an observation. -/
def factor (ratios : List α) : α :=
  (median ratios).getD 1

/-- The ratios observed in a number of rounds. -/
def settle (target : α) : Nat → List α
  | 0 => []
  | rounds + 1 =>
      settle target rounds ++ [target / factor (settle target rounds)]

@[simp]
theorem length_settle (target : α) (rounds : Nat) :
    (settle target rounds).length = rounds := by
  induction rounds with
  | zero => rfl
  | succ rounds induction => simp [settle, induction]

section Loop

variable [IsStrictOrderedRing α] {target : α}

theorem settle_one (rounds : Nat) :
    settle (1 : α) rounds = List.replicate rounds 1 := by
  induction rounds with
  | zero => rfl
  | succ rounds induction =>
      have right : factor (List.replicate rounds (1 : α)) = 1 := by
        cases rounds with
        | zero => rfl
        | succ rounds =>
            rw [factor, median_replicate (Nat.succ_ne_zero rounds)]
            rfl
      rw [settle, induction, right, div_one, List.replicate_succ']

/-- Where the target and one were observed, the correction is between. -/
theorem factor_between {ratios rest : List α} (apart : target ≠ 1)
    (listed : ratios.Perm (target :: 1 :: rest))
    (inside : ∀ value ∈ rest, Between target 1 value) :
    Between target 1 (factor ratios) := by
  unfold Between at inside ⊢
  rcases lt_or_gt_of_ne apart with below | above
  · rw [min_eq_left below.le, max_eq_right below.le] at inside ⊢
    obtain ⟨middle, found, bounds⟩ := median_between listed below inside
    rw [factor, found]
    exact bounds
  · rw [min_eq_right above.le, max_eq_left above.le] at inside ⊢
    obtain ⟨middle, found, bounds⟩ :=
      median_between (listed.trans (List.Perm.swap _ _ _)) above inside
    rw [factor, found]
    exact bounds

theorem between_pos {value : α} (positive : 0 < target)
    (between : Between target 1 value) : 0 < value :=
  (lt_min positive one_pos).trans between.1

/-- What is observed against a correction in between is in between. -/
theorem between_div {value : α} (positive : 0 < target)
    (between : Between target 1 value) :
    Between target 1 (target / value) := by
  have known := between_pos positive between
  unfold Between at between ⊢
  rcases le_total target 1 with below | above
  · rw [min_eq_left below, max_eq_right below] at between ⊢
    constructor
    · rw [lt_div_iff₀ known]
      exact mul_lt_of_lt_one_right positive between.2
    · rw [div_lt_one known]
      exact between.1
  · rw [min_eq_right above, max_eq_left above] at between ⊢
    constructor
    · rw [one_lt_div known]
      exact between.2
    · exact div_lt_self positive between.1

/-- The rounds behind the first two observe values strictly between. -/
theorem settle_perm (positive : 0 < target) (apart : target ≠ 1)
    (rounds : Nat) :
    ∃ rest, (settle target (rounds + 2)).Perm (target :: 1 :: rest) ∧
      ∀ value ∈ rest, Between target 1 value := by
  induction rounds with
  | zero =>
      have first : settle target 1 = [target] := by
        simp [settle, factor, median]
      have second : settle target 2 = [target, 1] := by
        rw [settle, first, factor, median_singleton, Option.getD_some,
          div_self positive.ne']
        rfl
      refine ⟨[], ?_, fun value member => absurd member List.not_mem_nil⟩
      rw [second]
  | succ rounds induction =>
      obtain ⟨rest, listed, inside⟩ := induction
      have between := factor_between apart listed inside
      refine ⟨rest ++ [target / factor (settle target (rounds + 2))],
        listed.append_right _, ?_⟩
      intro value member
      rcases List.mem_append.mp member with before | last
      · exact inside value before
      · rw [List.mem_singleton.mp last]
        exact between_div positive between

/-- From the second round on, the correction is strictly between. -/
theorem factor_settle_between (positive : 0 < target) (apart : target ≠ 1)
    (rounds : Nat) :
    Between target 1 (factor (settle target (rounds + 2))) := by
  obtain ⟨rest, listed, inside⟩ := settle_perm positive apart rounds
  exact factor_between apart listed inside

theorem factor_settle_pos (positive : 0 < target) (rounds : Nat) :
    0 < factor (settle target rounds) := by
  by_cases apart : target = 1
  · rw [apart, settle_one, factor]
    cases rounds with
    | zero => exact one_pos
    | succ rounds =>
        rw [median_replicate (Nat.succ_ne_zero rounds)]
        exact one_pos
  · match rounds with
    | 0 => exact one_pos
    | 1 =>
        rw [settle, settle, List.nil_append, factor, median_singleton]
        exact div_pos positive one_pos
    | rounds + 2 =>
        exact between_pos positive
          (factor_settle_between positive apart rounds)

/-- The correction is right after one round, or if it never was needed. -/
theorem factor_settle_eq_iff (positive : 0 < target) (rounds : Nat) :
    factor (settle target rounds) = target ↔ rounds = 1 ∨ target = 1 := by
  by_cases apart : target = 1
  · rw [apart, settle_one, factor]
    cases rounds with
    | zero => simp [median]
    | succ rounds => simp [median_replicate (Nat.succ_ne_zero rounds)]
  · match rounds with
    | 0 => simp [settle, factor, median, eq_comm]
    | 1 => simp [settle, factor, median]
    | rounds + 2 =>
        have between := factor_settle_between positive apart rounds
        have never : factor (settle target (rounds + 2)) ≠ target := by
          intro same
          rw [same, Between, min_lt_iff, lt_max_iff] at between
          rcases between with ⟨below | below, above | above⟩
          · exact lt_irrefl _ below
          · exact lt_irrefl _ below
          · exact lt_irrefl _ above
          · exact lt_irrefl _ (below.trans above)
        simp [never, apart]

end Loop

end Runa.Feedback.Median
