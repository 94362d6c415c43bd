import Mathlib.Order.Bounds.Basic
import Mathlib.Order.MinMax
import Mathlib.Tactic.Common

/-!
# Edit distance

The least number of insertions, deletions and substitutions, each anywhere in
the list, that turn one list into another.  `distance` is the recursion over
the first items, and `isLeast_distance` says that it is this number; so it is
the recursion over the last items too (`distance_concat_concat`), which is
what a table over the beginnings of two lists is filled by.
-/

namespace Runa.Edits.Distance

universe u

variable {α : Type u}

/-! ## Edits -/

/-- One insertion, deletion or substitution. -/
inductive Edit : List α → List α → Prop where
  | insert (front back : List α) (item : α) :
      Edit (front ++ back) (front ++ item :: back)
  | delete (front back : List α) (item : α) :
      Edit (front ++ item :: back) (front ++ back)
  | substitute (front back : List α) (old new : α) :
      Edit (front ++ old :: back) (front ++ new :: back)

/-- So many edits, one after the other. -/
inductive Turns : Nat → List α → List α → Prop where
  | none (list : List α) : Turns 0 list list
  | next {count : Nat} {first second last : List α} :
      Edit first second → Turns count second last →
        Turns (count + 1) first last

section

variable {first second last : List α} {count later : Nat}

theorem Edit.symm (edit : Edit first second) : Edit second first := by
  cases edit with
  | insert front back item => exact .delete front back item
  | delete front back item => exact .insert front back item
  | substitute front back old new => exact .substitute front back new old

theorem Edit.cons (head : α) (edit : Edit first second) :
    Edit (head :: first) (head :: second) := by
  cases edit with
  | insert front back item => exact .insert (head :: front) back item
  | delete front back item => exact .delete (head :: front) back item
  | substitute front back old new =>
      exact .substitute (head :: front) back old new

theorem Edit.reverse (edit : Edit first second) :
    Edit first.reverse second.reverse := by
  cases edit with
  | insert front back item =>
      simpa using Edit.insert back.reverse front.reverse item
  | delete front back item =>
      simpa using Edit.delete back.reverse front.reverse item
  | substitute front back old new =>
      simpa using Edit.substitute back.reverse front.reverse old new

theorem Turns.concat (turns : Turns count first second)
    (edit : Edit second last) : Turns (count + 1) first last := by
  induction turns with
  | none => exact .next edit (.none last)
  | next here _ induction => exact .next here (induction edit)

theorem Turns.symm (turns : Turns count first second) :
    Turns count second first := by
  induction turns with
  | none list => exact .none list
  | next edit _ induction => exact induction.concat edit.symm

theorem Turns.cons (head : α) (turns : Turns count first second) :
    Turns count (head :: first) (head :: second) := by
  induction turns with
  | none list => exact .none (head :: list)
  | next edit _ induction => exact .next (edit.cons head) induction

theorem Turns.reverse (turns : Turns count first second) :
    Turns count first.reverse second.reverse := by
  induction turns with
  | none list => exact .none list.reverse
  | next edit _ induction => exact .next edit.reverse induction

theorem turns_symm_iff : Turns count first second ↔ Turns count second first :=
  ⟨Turns.symm, Turns.symm⟩

theorem turns_reverse_iff :
    Turns count first.reverse second.reverse ↔ Turns count first second := by
  constructor
  · intro turns
    simpa using turns.reverse
  · exact Turns.reverse

theorem turns_zero_iff : Turns 0 first second ↔ first = second := by
  constructor
  · intro turns
    cases turns
    rfl
  · rintro rfl
    exact .none first

end

/-! ## The recursion -/

variable [DecidableEq α]

/-- What it costs to have one item for another. -/
def cost (old new : α) : Nat :=
  if old = new then 0 else 1

theorem cost_le_one (old new : α) : cost old new ≤ 1 := by
  rw [cost]
  split
  · exact Nat.zero_le 1
  · exact Nat.le_refl 1

/-- The distances of a list with one item more in front. -/
def distanceCons (head : α) (below : List α → Nat) : List α → Nat
  | [] => below [] + 1
  | item :: items =>
      min (min (below (item :: items) + 1)
          (distanceCons head below items + 1))
        (below items + cost head item)

/-- The first item of the one list is deleted, or the one of the other is
inserted, or the one is put for the other. -/
def distance : List α → List α → Nat
  | [] => List.length
  | item :: items => distanceCons item (distance items)

section

variable (first second : List α) (old new : α)

@[simp]
theorem distance_nil_left : distance [] second = second.length := rfl

@[simp]
theorem distance_nil_right : distance first [] = first.length := by
  induction first with
  | nil => rfl
  | cons item items induction =>
      change distance items [] + 1 = items.length + 1
      rw [induction]

theorem distance_cons_cons :
    distance (old :: first) (new :: second) =
      min (min (distance first (new :: second) + 1)
          (distance (old :: first) second + 1))
        (distance first second + cost old new) :=
  rfl

theorem distance_cons_left_le :
    distance (old :: first) second ≤ distance first second + 1 := by
  cases second with
  | nil => simp
  | cons item items =>
      rw [distance_cons_cons]
      omega

theorem distance_cons_right_le :
    distance first (new :: second) ≤ distance first second + 1 := by
  cases first with
  | nil => simp
  | cons item items =>
      rw [distance_cons_cons]
      omega

theorem distance_cons_cons_le :
    distance (old :: first) (new :: second) ≤
      distance first second + cost old new := by
  rw [distance_cons_cons]
  omega

end

/-! ## The least number -/

section

variable {first second last : List α} {count : Nat}

/-- The edits that the recursion chooses. -/
theorem turns_distance (first second : List α) :
    Turns (distance first second) first second := by
  induction first generalizing second with
  | nil =>
      induction second with
      | nil => exact .none []
      | cons item items induction =>
          exact induction.concat (.insert [] items item)
  | cons old first deleted =>
      induction second with
      | nil =>
          rw [distance_nil_right]
          have rest := deleted []
          rw [distance_nil_right] at rest
          exact .next (.delete [] first old) rest
      | cons new second inserted =>
          rw [distance_cons_cons]
          rcases min_choice
              (min (distance first (new :: second) + 1)
                (distance (old :: first) second + 1))
              (distance first second + cost old new) with least | least
          · rw [least]
            rcases min_choice (distance first (new :: second) + 1)
                (distance (old :: first) second + 1) with least | least
            · rw [least]
              exact .next (.delete [] first old) (deleted (new :: second))
            · rw [least]
              exact inserted.concat (.insert [] second new)
          · rw [least, cost]
            split
            · next same =>
                subst same
                exact (deleted second).cons old
            · exact .next (.substitute [] first old new)
                ((deleted second).cons new)

theorem distance_le_cons (item : α) (first last : List α) :
    distance first last ≤ distance (item :: first) last + 1 := by
  induction last with
  | nil =>
      rw [distance_nil_right, distance_nil_right, List.length_cons]
      omega
  | cons other last induction =>
      have here := distance_cons_right_le first last other
      rw [distance_cons_cons]
      omega

theorem distance_substitute_le (old new : α) (first last : List α) :
    distance (old :: first) last ≤ distance (new :: first) last + 1 := by
  induction last with
  | nil =>
      rw [distance_nil_right, distance_nil_right]
      exact Nat.le_succ _
  | cons other last induction =>
      have cheap := cost_le_one old other
      rw [distance_cons_cons, distance_cons_cons]
      omega

/-- What is near stays so behind one more item. -/
theorem distance_cons_le (near : ∀ last : List α,
      distance first last ≤ distance second last + 1)
    (item : α) (last : List α) :
    distance (item :: first) last ≤ distance (item :: second) last + 1 := by
  induction last with
  | nil =>
      have here := near []
      simp only [distance_nil_right, List.length_cons] at here ⊢
      omega
  | cons other last induction =>
      have deleted := near (other :: last)
      have kept := near last
      rw [distance_cons_cons, distance_cons_cons]
      omega

theorem distance_append_le (front : List α)
    (near : ∀ last : List α,
      distance first last ≤ distance second last + 1) :
    ∀ last : List α,
      distance (front ++ first) last ≤ distance (front ++ second) last + 1 := by
  induction front with
  | nil => exact near
  | cons item front induction => exact distance_cons_le induction item

/-- One edit changes no distance by more than one. -/
theorem distance_edit_le (edit : Edit first second) (last : List α) :
    distance first last ≤ distance second last + 1 := by
  cases edit with
  | insert front back item =>
      exact distance_append_le front (distance_le_cons item back) last
  | delete front back item =>
      exact distance_append_le front
        (fun last => distance_cons_left_le back last item) last
  | substitute front back old new =>
      exact distance_append_le front (distance_substitute_le old new back)
        last

/-- Fewer edits than the distance turn no list into the other. -/
theorem distance_le_of_turns (turns : Turns count first second) :
    distance first second ≤ count := by
  induction turns with
  | none list =>
      induction list with
      | nil => exact Nat.le_refl 0
      | cons item items induction =>
          have here := distance_cons_cons_le items items item item
          rw [cost, if_pos rfl] at here
          exact here.trans induction
  | next edit _ induction =>
      exact (distance_edit_le edit _).trans (Nat.succ_le_succ induction)

theorem isLeast_distance (first second : List α) :
    IsLeast {count | Turns count first second} (distance first second) :=
  ⟨turns_distance first second, fun _ turns => distance_le_of_turns turns⟩

/-! ## Its laws -/

theorem distance_eq_of_turns_iff {first' second' : List α}
    (alike : ∀ count,
      Turns count first second ↔ Turns count first' second') :
    distance first second = distance first' second' := by
  apply (isLeast_distance first second).unique
  rw [show {count | Turns count first second} =
    {count | Turns count first' second'} from Set.ext alike]
  exact isLeast_distance first' second'

theorem distance_comm (first second : List α) :
    distance first second = distance second first :=
  distance_eq_of_turns_iff fun _ => turns_symm_iff

theorem distance_reverse (first second : List α) :
    distance first.reverse second.reverse = distance first second :=
  distance_eq_of_turns_iff fun _ => turns_reverse_iff

theorem distance_eq_zero_iff : distance first second = 0 ↔ first = second := by
  rw [← turns_zero_iff]
  constructor
  · intro zero
    have turns := turns_distance first second
    rwa [zero] at turns
  · intro turns
    exact Nat.le_zero.mp (distance_le_of_turns turns)

theorem distance_le_max (first second : List α) :
    distance first second ≤ max first.length second.length := by
  induction first generalizing second with
  | nil => exact Nat.le_max_right _ _
  | cons old first induction =>
      cases second with
      | nil =>
          rw [distance_nil_right]
          exact Nat.le_max_left _ _
      | cons new second =>
          have here := distance_cons_cons_le first second old new
          have cheap := cost_le_one old new
          have rest := induction second
          simp only [List.length_cons]
          omega

/-- The recursion over the last items. -/
theorem distance_concat_concat (first second : List α) (old new : α) :
    distance (first ++ [old]) (second ++ [new]) =
      min (min (distance first (second ++ [new]) + 1)
          (distance (first ++ [old]) second + 1))
        (distance first second + cost old new) := by
  rw [← distance_reverse, List.reverse_append, List.reverse_append,
    List.reverse_singleton, List.reverse_singleton, List.singleton_append,
    List.singleton_append, distance_cons_cons, distance_reverse,
    ← distance_reverse first (second ++ [new]), List.reverse_append,
    ← distance_reverse (first ++ [old]) second, List.reverse_append]
  rfl

end

end Runa.Edits.Distance
