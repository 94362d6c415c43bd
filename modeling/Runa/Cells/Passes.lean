import Mathlib.Data.List.Basic
import Mathlib.Logic.Function.Basic
import Mathlib.Tactic.Common

/-!
# Passes over memory

Loops that row cells at one place and write them at another, one cell at a
time or several at once.  The places may overlap as long as no cell is written
before it is read.
-/

namespace Runa.Cells.Passes

variable {α : Type}

/-- Some cells in a row. -/
def row (cells : Nat → α) (start count : Nat) : List α :=
  (List.range count).map fun i => cells (start + i)

@[simp]
theorem length_row (cells : Nat → α) (start count : Nat) :
    (row cells start count).length = count := by
  simp [row]

theorem getElem?_row (cells : Nat → α) (start count i : Nat) :
    (row cells start count)[i]? =
      if i < count then some (cells (start + i)) else none := by
  by_cases within : i < count
  · rw [row, List.getElem?_map, List.getElem?_range within, if_pos within]
    rfl
  · rw [if_neg within, List.getElem?_eq_none]
    rw [length_row]
    exact Nat.le_of_not_lt within

theorem row_succ (cells : Nat → α) (start count : Nat) :
    row cells start (count + 1) =
      cells start :: row cells (start + 1) count := by
  rw [row, List.range_succ_eq_map, List.map_cons, List.map_map]
  refine congrArg _ (List.map_congr_left fun i _ => ?_)
  exact congrArg cells (Nat.succ_add_eq_add_succ start i).symm

theorem row_add (cells : Nat → α) (start front back : Nat) :
    row cells start (front + back) =
      row cells start front ++ row cells (start + front) back := by
  induction front generalizing start with
  | zero => simp [row]
  | succ front induction =>
      rw [Nat.succ_add, row_succ, row_succ, induction, List.cons_append,
        Nat.succ_add_eq_add_succ]

/-- Values are written in a row. -/
def store (cells : Nat → α) (start : Nat) (values : List α) : Nat → α :=
  fun place =>
    if start ≤ place then values[place - start]?.getD (cells place)
    else cells place

/-- The cells of a part are those of another part, changed. -/
def mapped (change : α → α) (source target first count : Nat)
    (cells : Nat → α) : Nat → α :=
  fun place =>
    if target + first ≤ place ∧ place < target + first + count then
      change (cells (source + (place - target)))
    else cells place

variable {change : α → α} {source target first count : Nat}
  {cells : Nat → α}

theorem mapped_zero :
    mapped change source target first 0 cells = cells := by
  funext place
  rw [mapped, if_neg]
  omega

/-- The cells outside of the part stay. -/
theorem mapped_outside {place : Nat}
    (outside : place < target + first ∨ target + first + count ≤ place) :
    mapped change source target first count cells place = cells place := by
  rw [mapped, if_neg]
  omega

theorem row_mapped :
    row (mapped change source target 0 count cells) target count =
      (row cells source count).map change := by
  rw [row, row, List.map_map]
  refine List.map_congr_left fun i member => ?_
  have within := List.mem_range.mp member
  rw [mapped, if_pos (by omega), Function.comp_apply,
    Nat.add_sub_cancel_left]

/-- No cell is written before it is read. -/
def Ahead (source target stop : Nat) : Prop :=
  target ≤ source ∨ source + stop ≤ target

/-- One cell, and then the others. -/
theorem mapped_update (ahead : Ahead source target (first + (count + 1))) :
    mapped change source target (first + 1) count
        (Function.update cells (target + first)
          (change (cells (source + first)))) =
      mapped change source target first (count + 1) cells := by
  unfold Ahead at ahead
  funext place
  by_cases here : place = target + first
  · subst here
    rw [mapped, if_neg (by omega), Function.update_self, mapped,
      if_pos (by omega), Nat.add_sub_cancel_left]
  · by_cases later :
        target + first < place ∧ place < target + first + (count + 1)
    · have apart : source + (place - target) ≠ target + first := by omega
      rw [mapped, if_pos (by omega), Function.update_of_ne apart, mapped,
        if_pos (by omega)]
    · rw [mapped, if_neg (by omega), Function.update_of_ne here, mapped,
        if_neg (by omega)]

/-- Several cells in place, and then the others. -/
theorem mapped_store {width : Nat} :
    mapped change target target (first + width) count
        (store cells (target + first)
          ((row cells (target + first) width).map change)) =
      mapped change target target first (count + width) cells := by
  funext place
  by_cases before : place < target + first
  · rw [mapped, if_neg (by omega), store, if_neg (by omega), mapped,
      if_neg (by omega)]
  · have back : target + (place - target) = place := by omega
    have stored : store cells (target + first)
          ((row cells (target + first) width).map change) place =
        if place < target + first + width then change (cells place)
        else cells place := by
      have whole : target + first + (place - (target + first)) = place := by
        omega
      rw [store, if_pos (by omega), List.getElem?_map, getElem?_row, whole]
      by_cases within : place < target + first + width
      · rw [if_pos within, if_pos (by omega)]
        rfl
      · rw [if_neg within, if_neg (by omega)]
        rfl
    rw [mapped, mapped, back, stored]
    by_cases within : place < target + first + width
    · rw [if_neg (by omega), if_pos within, if_pos (by omega)]
    · rw [if_neg within]
      by_cases later : place < target + first + (count + width)
      · rw [if_pos (by omega), if_pos (by omega)]
      · rw [if_neg (by omega), if_neg (by omega)]

end Runa.Cells.Passes
