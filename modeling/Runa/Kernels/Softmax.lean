import Mathlib.Order.WithBot
import Runa.Cells.Passes
import Runa.Kernels.Filters

/-!
# The softmax kernel

`runa_softmax_f32_scalar` of `runa-kernels/zig/kernels.zig`, which goes over
eight cells at once where it can, and the plain function of
`runa-kernels/src/reference.rs`.  The exponential function is a parameter.
The kernel reads and writes memory, and may write where it reads: the sampler
calls it in place (`runaSoftmax_eq`).
-/

namespace Runa.Kernels.Softmax

open Runa.Cells.Passes
open Runa.Kernels.Filters

/-! ## The function -/

/-- Lanes of a vector, `VLEN` -/
def vlen : Nat := 8

section

variable (exp : ℚ → ℚ)

def load (cells : Nat → ℚ) (start : Nat) : List ℚ :=
  row cells start vlen

/-- The loop over vectors of the input: the lanes, what is left and where it
is. -/
def laneMax (cells : Nat → ℚ) (input : Nat) : Nat → Nat →
    List (WithBot ℚ) → List (WithBot ℚ) × Nat × Nat
  | left + 8, i, lanes =>
    laneMax cells input left (i + 8)
      (lanes.zipWith max ((load cells (input + i)).map WithBot.some))
  | left, i, lanes => (lanes, left, i)

/-- The loop over single cells. -/
def tailMax (cells : Nat → ℚ) (input : Nat) : Nat → Nat → WithBot ℚ →
    WithBot ℚ
  | 0, _, best => best
  | left + 1, i, best =>
    tailMax cells input left (i + 1) (max best (cells (input + i)))

/-- `@reduce(.Max, …)` -/
def reduceMax (lanes : List (WithBot ℚ)) : WithBot ℚ :=
  lanes.foldl max ⊥

def maximum (cells : Nat → ℚ) (input n : Nat) : WithBot ℚ :=
  if vlen ≤ n then
    let (lanes, left, i) := laneMax cells input n 0 (List.replicate vlen ⊥)
    tailMax cells input left i (reduceMax lanes)
  else tailMax cells input n 0 ⊥

/-- The exponentials are written, and summed up. -/
def expLoop (best : ℚ) (input output : Nat) : Nat → Nat → (Nat → ℚ) → ℚ →
    (Nat → ℚ) × ℚ
  | 0, _, cells, sum => (cells, sum)
  | left + 1, i, cells, sum =>
    let e := exp (cells (input + i) - best)
    expLoop best input output left (i + 1)
      (Function.update cells (output + i) e) (sum + e)

/-- The loop over single cells of the output. -/
def scaleTail (inv : ℚ) (output : Nat) : Nat → Nat → (Nat → ℚ) → Nat → ℚ
  | 0, _, cells => cells
  | left + 1, i, cells =>
    scaleTail inv output left (i + 1)
      (Function.update cells (output + i) (cells (output + i) * inv))

/-- The loop over vectors of the output, and what is left. -/
def scaleLanes (inv : ℚ) (output : Nat) : Nat → Nat → (Nat → ℚ) → Nat → ℚ
  | left + 8, i, cells =>
    scaleLanes inv output left (i + 8)
      (store cells (output + i)
        ((load cells (output + i)).map fun x => x * inv))
  | left, i, cells => scaleTail inv output left i cells

/-- `runa_softmax_f32_scalar` -/
def runaSoftmax (cells : Nat → ℚ) (input output n : Nat) : Nat → ℚ :=
  if n = 0 then cells
  else
    let best := (maximum cells input n).unbotD 0
    let (cells, sum) := expLoop exp best input output n 0 cells 0
    if sum ≤ 0 then cells else scaleLanes (1 / sum) output n 0 cells

/-- `reference::softmax_f32` -/
def softmax (input : List ℚ) : List ℚ :=
  let best := ((input.map WithBot.some).foldl max ⊥).unbotD 0
  let exps := input.map fun x => exp (x - best)
  let sum := exps.sum
  if 0 < sum then exps.map fun e => e * (1 / sum) else exps

end

/-! ## The greatest -/

theorem foldl_max (lanes : List (WithBot ℚ)) (best : WithBot ℚ) :
    lanes.foldl max best = max best (reduceMax lanes) := by
  unfold reduceMax
  induction lanes generalizing best with
  | nil => exact (max_bot_right best).symm
  | cons lane lanes induction =>
      rw [List.foldl_cons, List.foldl_cons, induction, induction (max ⊥ lane),
        max_bot_left, max_assoc]

theorem reduceMax_cons (lane : WithBot ℚ) (lanes : List (WithBot ℚ)) :
    reduceMax (lane :: lanes) = max lane (reduceMax lanes) := by
  rw [reduceMax, List.foldl_cons, max_bot_left, foldl_max]

theorem reduceMax_append (front back : List (WithBot ℚ)) :
    reduceMax (front ++ back) = max (reduceMax front) (reduceMax back) := by
  rw [reduceMax, List.foldl_append, foldl_max]
  rfl

/-- The greatest of the greatest in each lane. -/
theorem reduceMax_zipWith {front back : List (WithBot ℚ)}
    (same : front.length = back.length) :
    reduceMax (front.zipWith max back) =
      max (reduceMax front) (reduceMax back) := by
  induction front generalizing back with
  | nil =>
      rw [List.length_nil, eq_comm, List.length_eq_zero_iff] at same
      subst same
      rfl
  | cons lane front induction =>
      rcases back with _ | ⟨other, back⟩
      · cases same
      · rw [List.zipWith_cons_cons, reduceMax_cons, reduceMax_cons,
          reduceMax_cons, induction (Nat.succ.inj same), max_max_max_comm]

/-- The cells of the input as lanes. -/
def lifted (cells : Nat → ℚ) (start count : Nat) : List (WithBot ℚ) :=
  (row cells start count).map WithBot.some

theorem lifted_succ (cells : Nat → ℚ) (start count : Nat) :
    lifted cells start (count + 1) =
      ↑(cells start) :: lifted cells (start + 1) count := by
  rw [lifted, row_succ]
  rfl

theorem lifted_add (cells : Nat → ℚ) (start front back : Nat) :
    lifted cells start (front + back) =
      lifted cells start front ++ lifted cells (start + front) back := by
  rw [lifted, row_add, List.map_append]
  rfl

theorem tailMax_eq (cells : Nat → ℚ) (input left i : Nat)
    (best : WithBot ℚ) :
    tailMax cells input left i best =
      max best (reduceMax (lifted cells (input + i) left)) := by
  induction left generalizing i best with
  | zero => exact (max_bot_right best).symm
  | succ left induction =>
      rw [tailMax, induction, lifted_succ, reduceMax_cons, max_assoc,
        Nat.add_assoc]

/-- The lanes and what is left have the greatest of all. -/
theorem laneMax_spec (cells : Nat → ℚ) (input left i : Nat)
    {lanes : List (WithBot ℚ)} (size : lanes.length = vlen) :
    tailMax cells input (laneMax cells input left i lanes).2.1
        (laneMax cells input left i lanes).2.2
        (reduceMax (laneMax cells input left i lanes).1) =
      max (reduceMax lanes) (reduceMax (lifted cells (input + i) left)) := by
  fun_induction laneMax cells input left i lanes with
  | case1 left i lanes induction =>
      have same : lanes.length =
          ((load cells (input + i)).map WithBot.some).length := by
        rw [size, List.length_map, load, length_row]
      have count : left + 8 = vlen + left := Nat.add_comm left 8
      rw [induction, reduceMax_zipWith same, max_assoc, ← reduceMax_append]
      · show _ = max _ (reduceMax (lifted cells (input + i) (left + 8)))
        rw [count, lifted_add, Nat.add_assoc]
        rfl
      · rw [List.length_zipWith, ← same, size, min_self]
  | case2 left i lanes short => exact tailMax_eq cells input left i _

theorem maximum_eq (cells : Nat → ℚ) (input n : Nat) :
    maximum cells input n = reduceMax (lifted cells input n) := by
  rw [maximum]
  split
  · have spec := laneMax_spec cells input n 0
      (List.length_replicate (n := vlen) (a := (⊥ : WithBot ℚ)))
    have none : reduceMax (List.replicate vlen ⊥) = ⊥ := rfl
    rw [none, max_bot_left] at spec
    exact spec
  · rw [tailMax_eq, max_bot_left, Nat.add_zero]

/-! ## The passes -/

variable {exp : ℚ → ℚ}

theorem expLoop_eq (best : ℚ) {input output left i : Nat}
    (ahead : Ahead input output (i + left)) (cells : Nat → ℚ) (sum : ℚ) :
    expLoop exp best input output left i cells sum =
      (mapped (fun x => exp (x - best)) input output i left cells,
        sum + ((row cells (input + i) left).map
          fun x => exp (x - best)).sum) := by
  induction left generalizing i cells sum with
  | zero =>
      rw [expLoop, mapped_zero]
      simp [row]
  | succ left induction =>
      have later : Ahead input output (i + 1 + left) := by
        unfold Ahead at ahead ⊢
        omega
      have kept : ∀ value : ℚ,
          row (Function.update cells (output + i) value)
              (input + (i + 1)) left =
            row cells (input + (i + 1)) left := by
        intro value
        refine List.map_congr_left fun j member => ?_
        have within := List.mem_range.mp member
        refine Function.update_of_ne ?_ _ _
        unfold Ahead at ahead
        omega
      rw [expLoop, induction later, mapped_update ahead, kept, row_succ,
        List.map_cons, List.sum_cons, add_assoc, Nat.add_assoc]

theorem scaleTail_eq (inv : ℚ) (output left i : Nat) (cells : Nat → ℚ) :
    scaleTail inv output left i cells =
      mapped (fun x => x * inv) output output i left cells := by
  induction left generalizing i cells with
  | zero => exact mapped_zero.symm
  | succ left induction =>
      rw [scaleTail, induction]
      exact mapped_update (Or.inl le_rfl)

theorem scaleLanes_eq (inv : ℚ) (output left i : Nat) (cells : Nat → ℚ) :
    scaleLanes inv output left i cells =
      mapped (fun x => x * inv) output output i left cells := by
  fun_induction scaleLanes inv output left i cells with
  | case1 i cells left induction =>
      rw [induction]
      exact mapped_store
  | case2 left i cells short => exact scaleTail_eq inv output left i cells

/-! ## The kernel -/

theorem softmax_distribution (positive : ∀ x, 0 < exp x) {input : List ℚ}
    (some : input ≠ []) : Distribution (softmax exp input) := by
  unfold softmax
  generalize ((input.map WithBot.some).foldl max ⊥).unbotD 0 =
    best
  have nonneg : ∀ e ∈ input.map fun x => exp (x - best), 0 ≤ e := by
    intro e member
    rcases List.mem_map.mp member with ⟨x, -, rfl⟩
    exact (positive _).le
  have total : 0 < (input.map fun x => exp (x - best)).sum := by
    rcases List.exists_cons_of_ne_nil some with ⟨x, rest, rfl⟩
    exact sum_pos_of_mem nonneg (by simp) (positive (x - best))
  have scaled := renormalize_distribution nonneg total
  rw [renormalize, if_neg (not_le.mpr total)] at scaled
  rw [if_pos total]
  exact scaled

/-- The passes of the kernel, one behind the other. -/
theorem runaSoftmax_passes (cells : Nat → ℚ) {input output n : Nat}
    (ahead : Ahead input output n) :
    ∃ change : ℚ → ℚ,
      change = (fun x => exp (x -
        (((row cells input n).map WithBot.some).foldl max ⊥).unbotD 0)) ∧
      runaSoftmax exp cells input output n =
        let sum := ((row cells input n).map change).sum
        if sum ≤ 0 then mapped change input output 0 n cells
        else
          mapped (fun x => x * (1 / sum)) output output 0 n
            (mapped change input output 0 n cells) := by
  refine ⟨_, rfl, ?_⟩
  rw [runaSoftmax]
  by_cases empty : n = 0
  · subst empty
    have none : ((row cells input 0).map fun x => exp (x -
        (((row cells input 0).map WithBot.some).foldl max ⊥).unbotD 0)).sum =
        0 := rfl
    rw [if_pos rfl, none, if_pos le_rfl, mapped_zero]
  · rw [if_neg empty, maximum_eq]
    dsimp only
    rw [expLoop_eq _ (by rwa [Nat.zero_add]), zero_add, Nat.add_zero]
    split
    · next small => exact (if_pos small).symm
    · next large =>
        exact (scaleLanes_eq _ _ _ _ _).trans (if_neg large).symm

theorem row_runaSoftmax (cells : Nat → ℚ) {input output n : Nat}
    (ahead : Ahead input output n) :
    row (runaSoftmax exp cells input output n) output n =
      softmax exp (row cells input n) := by
  rcases runaSoftmax_passes cells ahead with ⟨change, same, passes⟩
  rw [passes, softmax, ← same]
  by_cases small : ((row cells input n).map change).sum ≤ 0
  · rw [if_pos small, if_neg (not_lt.mpr small), row_mapped]
  · rw [if_neg small, if_pos (not_le.mp small), row_mapped, row_mapped]

theorem runaSoftmax_outside (cells : Nat → ℚ) {input output n place : Nat}
    (ahead : Ahead input output n)
    (outside : place < output ∨ output + n ≤ place) :
    runaSoftmax exp cells input output n place = cells place := by
  rcases runaSoftmax_passes cells ahead with ⟨change, -, passes⟩
  rw [← Nat.add_zero output] at outside
  rw [passes]
  dsimp only
  split
  · exact mapped_outside outside
  · rw [mapped_outside outside, mapped_outside outside]

/-- The kernel writes what the plain function gives, also where it reads, and
nothing elsewhere; of a positive function, it is a distribution. -/
theorem runaSoftmax_eq (cells : Nat → ℚ) {input output n : Nat}
    (ahead : Ahead input output n) :
    row (runaSoftmax exp cells input output n) output n =
        softmax exp (row cells input n) ∧
      (∀ place, place < output ∨ output + n ≤ place →
        runaSoftmax exp cells input output n place = cells place) ∧
      ((∀ x, 0 < exp x) → 0 < n →
        Distribution
          (row (runaSoftmax exp cells input output n) output n)) := by
  refine ⟨row_runaSoftmax cells ahead, ?_, ?_⟩
  · exact fun place => runaSoftmax_outside cells ahead
  · intro positive some
    rw [row_runaSoftmax cells ahead]
    apply softmax_distribution positive
    rw [← List.length_pos_iff, length_row]
    exact some

/-- One at zero, and a half elsewhere. -/
def halves (x : ℚ) : ℚ :=
  if x = 0 then 1 else 1 / 2

/-- Ten cells in place. -/
theorem runaSoftmax_inPlace :
    row (runaSoftmax halves (fun place => place) 3 3 10) 3 10 =
        softmax halves (row (fun place => place) 3 10) ∧
      (∀ place, place < 3 ∨ 3 + 10 ≤ place →
        runaSoftmax halves (fun place => place) 3 3 10 place = place) ∧
      ((∀ x, 0 < halves x) → 0 < 10 →
        Distribution
          (row (runaSoftmax halves (fun place => place) 3 3 10) 3 10)) :=
  runaSoftmax_eq _ (Or.inl le_rfl)

end Runa.Kernels.Softmax
