import Mathlib.Tactic.Common

/-!
# Steps that can fail

Computations in `Except`, taken apart where they succeed: a sequence of two,
and a loop over a list that stops at the first error.
-/

namespace Runa.Fallible.Steps

universe u v w

section

variable {ε : Type u} {α β : Type v}

theorem bind_eq_ok {first : Except ε α} {next : α → Except ε β}
    {value : β} :
    (first >>= next) = .ok value ↔
      ∃ middle, first = .ok middle ∧ next middle = .ok value := by
  constructor
  · intro ok
    cases first with
    | error error => cases ok
    | ok middle => exact ⟨middle, rfl, ok⟩
  · rintro ⟨middle, rfl, ok⟩
    exact ok

/-- What is done to an error leaves a value. -/
theorem mapError_eq_ok {δ : Type u} {change : ε → δ} {result : Except ε α}
    {value : α} : result.mapError change = .ok value ↔ result = .ok value := by
  cases result with
  | error error => simp [Except.mapError]
  | ok found => simp [Except.mapError]

end

section

variable {ε : Type u} {State : Type v} {Item : Type w}
  {step : State → Item → Except ε State} {items : List Item}
  {start final : State}

/-- What every step of a loop keeps of the items so far holds at its end. -/
theorem foldlM_run (Reached : List Item → State → Prop)
    (keeps : ∀ front item state next, Reached front state →
      step state item = .ok next → Reached (front ++ [item]) next)
    (begins : Reached [] start) (ran : items.foldlM step start = .ok final) :
    Reached items final := by
  have run : ∀ (rest front : List Item) (state : State),
      Reached front state → rest.foldlM step state = .ok final →
        Reached (front ++ rest) final := by
    intro rest
    induction rest with
    | nil =>
        intro front state reached ran
        cases ran
        rwa [List.append_nil]
    | cons item rest induction =>
        intro front state reached ran
        rw [List.foldlM_cons, bind_eq_ok] at ran
        obtain ⟨next, here, there⟩ := ran
        rw [List.append_cons]
        exact induction (front ++ [item]) next
          (keeps front item state next reached here) there
  exact run items [] start begins ran

/-- A loop that comes to its end has made each of its steps. -/
theorem step_of_foldlM (ran : items.foldlM step start = .ok final)
    {item : Item} (member : item ∈ items) :
    ∃ state next, step state item = .ok next := by
  induction items generalizing start with
  | nil => cases member
  | cons first rest induction =>
      rw [List.foldlM_cons, bind_eq_ok] at ran
      rcases ran with ⟨next, here, there⟩
      rcases List.mem_cons.mp member with rfl | later
      · exact ⟨start, next, here⟩
      · exact induction there later

/-- What is carried along unseen can be put back at the end. -/
theorem foldlM_map (carry : State → State)
    (commutes : ∀ state item,
      step (carry state) item = (step state item).map carry) :
    items.foldlM step (carry start) =
      (items.foldlM step start).map carry := by
  induction items generalizing start with
  | nil => rfl
  | cons item items induction =>
      rw [List.foldlM_cons, List.foldlM_cons, commutes]
      cases step start item with
      | error error => rfl
      | ok next => exact induction

/-- A loop whose steps go from one known state to the next. -/
theorem foldlM_eq_ok (value : List Item → State)
    (steps : ∀ front, ∀ item ∈ items,
      step (value front) item = .ok (value (front ++ [item]))) :
    items.foldlM step (value []) = .ok (value items) := by
  have run : ∀ (rest front : List Item),
      (∀ item ∈ rest, item ∈ items) →
        rest.foldlM step (value front) = .ok (value (front ++ rest)) := by
    intro rest
    induction rest with
    | nil =>
        intro front _
        rw [List.append_nil]
        rfl
    | cons item rest induction =>
        intro front members
        rw [List.foldlM_cons, steps front item (members item (by simp)),
          List.append_cons front item rest]
        exact induction (front ++ [item]) fun other member =>
          members other (List.mem_cons_of_mem item member)
  exact run items [] fun _ member => member

/-- A loop over the numbers below a bound comes to its end where each of its
steps can be made, and keeps what each of them keeps. -/
theorem foldlM_range_ok {step : State → Nat → Except ε State} {count : Nat}
    (Kept : Nat → State → Prop) (begins : Kept 0 start)
    (steps : ∀ index < count, ∀ state, Kept index state →
      ∃ next, step state index = .ok next ∧ Kept (index + 1) next) :
    ∃ final, (List.range count).foldlM step start = .ok final ∧
      Kept count final := by
  induction count with
  | zero => exact ⟨start, rfl, begins⟩
  | succ count induction =>
      rcases induction fun index below =>
          steps index (Nat.lt_succ_of_lt below) with ⟨state, ran, kept⟩
      rcases steps count (Nat.lt_succ_self count) state kept with
        ⟨final, stepped, kept⟩
      refine ⟨final, ?_, kept⟩
      rw [List.range_succ, List.foldlM_append, bind_eq_ok]
      refine ⟨state, ran, ?_⟩
      rw [List.foldlM_cons, stepped]
      rfl

/-- The same for a loop from one to a bound. -/
theorem foldlM_upTo_ok (step : State → Nat → Except ε State) (count : Nat)
    (Kept : Nat → State → Prop) (begins : Kept 0 start)
    (steps : ∀ index < count, ∀ state, Kept index state →
      ∃ next, step state (index + 1) = .ok next ∧ Kept (index + 1) next) :
    ∃ final, (List.range' 1 count).foldlM step start = .ok final ∧
      Kept count final := by
  rw [List.range'_eq_map_range, List.foldlM_map]
  simp only [Nat.add_comm 1]
  exact foldlM_range_ok Kept begins steps

end

end Runa.Fallible.Steps
