import Mathlib.Algebra.BigOperators.Group.List.Basic
import Mathlib.Algebra.GroupWithZero.Nat
import Mathlib.Algebra.Order.Group.Nat
import Runa.Fallible.Steps

/-!
# Checked machine arithmetic

Unsigned machine integers as natural numbers below a limit.  An operation
whose exact result is not below the limit, or that divides by zero, has a
fault instead of a value; so whatever a computation returns is what the same
computation returns over the natural numbers.
-/

namespace Runa.Word.Checked

/-- Why an operation has no value. -/
inductive Fault where
  | overflow
  | divideByZero
deriving DecidableEq, Repr

/-- A computation that may run into a fault. -/
abbrev Result (α : Type) := Except Fault α

/-- A result, if it is below the limit. -/
def word (limit n : Nat) : Result Nat :=
  if n < limit then .ok n else .error .overflow

def add (limit left right : Nat) : Result Nat :=
  word limit (left + right)

def mul (limit left right : Nat) : Result Nat :=
  word limit (left * right)

def div (left right : Nat) : Result Nat :=
  if right = 0 then .error .divideByZero else .ok (left / right)

/-- Multiplication that stops at the largest value. -/
def saturatingMul (limit left right : Nat) : Nat :=
  min (left * right) (limit - 1)

/-- The sum of a list, added up from the left. -/
def sum (limit : Nat) (items : List Nat) : Result Nat :=
  items.foldlM (add limit) 0

/-- The product of a list, multiplied from the left. -/
def product (limit : Nat) (items : List Nat) : Result Nat :=
  items.foldlM (mul limit) 1

variable {limit left right n result : Nat}

theorem word_eq_ok :
    word limit n = .ok result ↔ n < limit ∧ n = result := by
  unfold word
  split_ifs with below
  · simp [below]
  · simp [below]

@[simp]
theorem add_eq_ok :
    add limit left right = .ok result ↔
      left + right < limit ∧ left + right = result :=
  word_eq_ok

@[simp]
theorem mul_eq_ok :
    mul limit left right = .ok result ↔
      left * right < limit ∧ left * right = result :=
  word_eq_ok

@[simp]
theorem div_eq_ok :
    div left right = .ok result ↔
      right ≠ 0 ∧ left / right = result := by
  unfold div
  split_ifs with zero
  · simp [zero]
  · simp [zero]

/-- A computation with a value is made of computations with values. -/
@[simp]
theorem bind_eq_ok
    {α β : Type} {first : Result α} {next : α → Result β} {value : β} :
    (first >>= next) = .ok value ↔
      ∃ middle, first = .ok middle ∧ next middle = .ok value :=
  Runa.Fallible.Steps.bind_eq_ok

@[simp]
theorem pure_eq_ok {α : Type} {value value' : α} :
    (pure value : Result α) = .ok value' ↔ value = value' := by
  simp [pure, Except.pure]

/-- A computation is known to have a value from something about it. -/
theorem map_eq_ok
    {α β : Type} {first : Result α} {about : α → β} {fact : β} :
    first.map about = .ok fact ↔
      ∃ value, first = .ok value ∧ about value = fact := by
  cases first with
  | error fault => simp [Except.map]
  | ok value => simp [Except.map]

/-- A sum below the limit has no prefix above it. -/
theorem foldlM_add_eq_ok {items : List Nat} {start : Nat}
    (below : start < limit) :
    items.foldlM (add limit) start = .ok result ↔
      start + items.sum < limit ∧ start + items.sum = result := by
  induction items generalizing start with
  | nil => simp [below]
  | cons item items induction =>
      rw [List.foldlM_cons, bind_eq_ok, List.sum_cons, ← Nat.add_assoc]
      constructor
      · rintro ⟨middle, added, rest⟩
        obtain ⟨small, rfl⟩ := add_eq_ok.mp added
        exact (induction small).mp rest
      · intro ends
        have small : start + item < limit := by omega
        exact ⟨_, add_eq_ok.mpr ⟨small, rfl⟩, (induction small).mpr ends⟩

theorem sum_eq_ok {items : List Nat} (positive : 0 < limit) :
    sum limit items = .ok result ↔
      items.sum < limit ∧ items.sum = result := by
  rw [sum, foldlM_add_eq_ok positive, Nat.zero_add]

/-- A product has a value where no beginning of it leaves the range. -/
theorem foldlM_mul_eq_ok {items : List Nat} {start : Nat} :
    items.foldlM (mul limit) start = .ok result ↔
      (∀ front, front <+: items → front ≠ [] →
          start * front.prod < limit) ∧
        start * items.prod = result := by
  induction items generalizing start with
  | nil => simp
  | cons item items induction =>
      rw [List.foldlM_cons, bind_eq_ok, List.prod_cons]
      constructor
      · rintro ⟨middle, multiplied, rest⟩
        obtain ⟨small, rfl⟩ := mul_eq_ok.mp multiplied
        obtain ⟨smaller, same⟩ := induction.mp rest
        refine ⟨?_, by rw [← same, Nat.mul_assoc]⟩
        intro front leads some
        cases front with
        | nil => exact (some rfl).elim
        | cons first front =>
            obtain ⟨rfl, onward⟩ := List.cons_prefix_cons.mp leads
            rw [List.prod_cons, ← Nat.mul_assoc]
            cases front with
            | nil => simpa using small
            | cons second front => exact smaller _ onward (by simp)
      · rintro ⟨smaller, same⟩
        have small : start * item < limit := by
          simpa using smaller [item] (by simp) (by simp)
        refine ⟨_, mul_eq_ok.mpr ⟨small, rfl⟩, induction.mpr ⟨?_, ?_⟩⟩
        · intro front leads some
          have here :=
            smaller (item :: front) (List.cons_prefix_cons.mpr ⟨rfl, leads⟩)
              (by simp)
          rwa [List.prod_cons, ← Nat.mul_assoc] at here
        · rw [← same, Nat.mul_assoc]

/-- No beginning of a product leaves the range. -/
def Multiplies (limit : Nat) (items : List Nat) : Prop :=
  ∀ front, front <+: items → front ≠ [] → front.prod < limit

/-- A smaller factor in front stays in range. -/
theorem Multiplies.of_le {items : List Nat} {small large : Nat}
    (multiplies : Multiplies limit (large :: items))
    (atMost : small ≤ large) : Multiplies limit (small :: items) := by
  intro front leads some
  cases front with
  | nil => exact (some rfl).elim
  | cons first front =>
      rcases List.cons_prefix_cons.mp leads with ⟨rfl, onward⟩
      have above := multiplies (large :: front)
        (List.cons_prefix_cons.mpr ⟨rfl, onward⟩) (List.cons_ne_nil _ _)
      rw [List.prod_cons] at above ⊢
      exact (Nat.mul_le_mul_right _ atMost).trans_lt above

theorem product_eq_ok {items : List Nat} :
    product limit items = .ok result ↔
      Multiplies limit items ∧ items.prod = result := by
  rw [product, foldlM_mul_eq_ok]
  simp only [Nat.one_mul, Multiplies]

/-- A product that has a value is the product. -/
theorem product_eq {items : List Nat}
    (computed : product limit items = .ok result) :
    items.prod = result :=
  (product_eq_ok.mp computed).2

end Runa.Word.Checked
