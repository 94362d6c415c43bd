import Mathlib.Data.List.Induction

/-!
# What last followed a window

A window may occur many times in a history.  What followed its last
occurrence changes with every entry of the history by one simple rule, which
is all that a table of continuations needs to keep up with it.
-/

namespace Runa.Recall.Continuations

variable {α : Type} {history window front back : List α}
  {entry next other : α} {place : Nat}

/-- The window occurs at a place, and this follows it. -/
def Follows (history window : List α) (place : Nat) (next : α) : Prop :=
  ∃ front back, front.length = place ∧
    history = front ++ (window ++ next :: back)

/-- This followed the window when it occurred last. -/
def LastFollows (history window : List α) (next : α) : Prop :=
  ∃ place, Follows history window place next ∧
    ∀ later other, Follows history window later other → later ≤ place

/-- One more entry follows the end of the history. -/
theorem follows_concat_iff :
    Follows (history ++ [entry]) window place next ↔
      Follows history window place next ∨
        (window <:+ history ∧ place + window.length = history.length ∧
          next = entry) := by
  constructor
  · rintro ⟨front, back, rfl, split⟩
    rcases List.eq_nil_or_concat back with rfl | ⟨back, last, rfl⟩
    · right
      rw [← List.append_assoc] at split
      rcases List.append_inj' split rfl with ⟨rfl, same⟩
      cases same
      exact ⟨List.suffix_append _ _, (List.length_append ..).symm, rfl⟩
    · left
      have whole : history ++ [entry] =
          (front ++ (window ++ next :: back)) ++ [last] := by
        rw [split]
        simp
      rcases List.append_inj' whole rfl with ⟨rfl, -⟩
      exact ⟨front, back, rfl, rfl⟩
  · rintro (⟨front, back, rfl, rfl⟩ | ⟨⟨front, rfl⟩, size, rfl⟩)
    · exact ⟨front, back ++ [entry], rfl, by simp⟩
    · refine ⟨front, [], ?_, by simp⟩
      rw [List.length_append] at size
      omega

theorem follows_length (follows : Follows history window place next) :
    place + window.length < history.length := by
  rcases follows with ⟨front, back, rfl, rfl⟩
  simp only [List.length_append, List.length_cons]
  omega

/-- At the end of the history, the new entry follows the window. -/
theorem lastFollows_concat_suffix (ends : window <:+ history) :
    LastFollows (history ++ [entry]) window next ↔ next = entry := by
  have size := ends.length_le
  constructor
  · rintro ⟨place, follows, last⟩
    have newest : Follows (history ++ [entry]) window
        (history.length - window.length) entry :=
      follows_concat_iff.mpr (Or.inr ⟨ends, by omega, rfl⟩)
    have late := last _ _ newest
    rcases follows_concat_iff.mp follows with old | ⟨-, -, same⟩
    · have early := follows_length old
      omega
    · exact same
  · rintro rfl
    refine ⟨history.length - window.length,
      follows_concat_iff.mpr (Or.inr ⟨ends, by omega, rfl⟩), ?_⟩
    intro later other follows
    rcases follows_concat_iff.mp follows with old | ⟨-, same, -⟩
    · have early := follows_length old
      omega
    · omega

/-- Elsewhere the new entry changes nothing. -/
theorem lastFollows_concat_of_not (ends : ¬ window <:+ history) :
    LastFollows (history ++ [entry]) window next ↔
      LastFollows history window next := by
  have same : ∀ place next,
      Follows (history ++ [entry]) window place next ↔
        Follows history window place next := by
    intro place next
    rw [follows_concat_iff]
    constructor
    · rintro (follows | ⟨bad, -⟩)
      · exact follows
      · exact (ends bad).elim
    · exact Or.inl
  simp only [LastFollows, same]

theorem not_lastFollows_nil : ¬ LastFollows [] window next := by
  rintro ⟨place, follows, -⟩
  exact absurd (follows_length follows) (Nat.not_lt_zero _)

/-- Only one entry followed the window last. -/
theorem LastFollows.unique (first : LastFollows history window next)
    (second : LastFollows history window other) : next = other := by
  rcases first with ⟨place, follows, latest⟩
  rcases second with ⟨place', follows', latest'⟩
  have same : place = place' :=
    Nat.le_antisymm (latest' _ _ follows) (latest _ _ follows')
  rcases follows with ⟨front, back, rfl, split⟩
  rcases follows' with ⟨front', back', rfl, split'⟩
  rw [split] at split'
  have rest := (List.append_inj split' same).2
  rw [List.append_cancel_left_eq] at rest
  cases rest
  rfl

end Runa.Recall.Continuations
