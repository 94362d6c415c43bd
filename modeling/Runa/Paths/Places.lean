import Runa.Stream.Lines

/-!
# Places in a file system

A place is given by the names that lead to it from the root.  A path leads
from one place to another, name by name: an empty name and a dot stay, two
dots go back, and a path that begins with a slash starts at the root.  There
are no links between places, so every path leads to one place only.
-/

namespace Runa.Paths.Places

open Runa.Stream.Utf8
open Runa.Stream.Lines (of_mem_splitOn)

/-- The names from the root. -/
abbrev Place := List Text

/-- What one part of a path does. -/
def enter (place : Place) (part : Text) : Place :=
  if part = [] ∨ part = ['.'] then place
  else if part = ['.', '.'] then place.dropLast
  else place ++ [part]

/-- The place a relative path leads to. -/
def follow (place : Place) (path : Text) : Place :=
  (path.splitOn '/').foldl enter place

/-- The place a path leads to, from the place it is joined to. -/
def goto (place : Place) (path : Text) : Place :=
  if path.head? = some '/' then follow [] path else follow place path

/-- The path from the root. -/
def fullPath (place : Place) : Text :=
  ['/'].intercalate ([] :: place)

/-- A part that is a name. -/
def Name (part : Text) : Prop :=
  part ≠ [] ∧ part ≠ ['.'] ∧ part ≠ ['.', '.'] ∧ '/' ∉ part

/-- A place with a name at every step. -/
def Proper (place : Place) : Prop :=
  ∀ part ∈ place, Name part

/-- A path of names only. -/
def Plain (path : Text) : Prop :=
  ∀ part ∈ path.splitOn '/', Name part

/-! ## Names -/

theorem enter_name {part : Text} (name : Name part) (place : Place) :
    enter place part = place ++ [part] := by
  rcases name with ⟨some, dot, dots, -⟩
  rw [enter, if_neg (not_or.mpr ⟨some, dot⟩), if_neg dots]

theorem foldl_enter {parts : List Text} (names : ∀ part ∈ parts, Name part)
    (place : Place) : parts.foldl enter place = place ++ parts := by
  induction parts generalizing place with
  | nil => exact (List.append_nil place).symm
  | cons part parts induction =>
      rw [List.foldl_cons, enter_name (names part List.mem_cons_self),
        induction fun other member =>
          names other (List.mem_cons_of_mem part member),
        List.append_assoc]
      rfl

theorem Name.splitOn {part : Text} (name : Name part) :
    part.splitOn '/' = [part] :=
  List.splitOn_eq_singleton name.2.2.2

theorem Name.plain {part : Text} (name : Name part) : Plain part := by
  intro other member
  rw [name.splitOn, List.mem_singleton] at member
  subst member
  exact name

theorem Plain.goto {path : Text} (plain : Plain path) (place : Place) :
    goto place path = place ++ path.splitOn '/' := by
  have relative : path.head? ≠ some '/' := by
    cases path with
    | nil =>
        intro slash
        cases slash
    | cons char rest =>
        intro slash
        cases slash
        apply (plain [] _).1 rfl
        rw [List.splitOn_cons_eq_if_modifyHead, if_pos (beq_self_eq_true _)]
        exact List.mem_cons_self
  rw [Places.goto, if_neg relative, follow]
  exact foldl_enter plain place

theorem goto_name {part : Text} (name : Name part) (place : Place) :
    goto place part = place ++ [part] := by
  rw [name.plain.goto, name.splitOn]

/-- A name can be continued. -/
theorem Name.append {part more : Text} (name : Name part)
    (free : '/' ∉ more) : Name (part ++ more) := by
  rcases name with ⟨some, dot, dots, slash⟩
  refine ⟨?_, ?_, ?_, ?_⟩
  · intro empty
    exact some (List.append_eq_nil_iff.mp empty).1
  · intro same
    rcases List.append_eq_singleton_iff.mp same with ⟨empty, -⟩ | ⟨one, -⟩
    · exact some empty
    · exact dot one
  · intro same
    cases part with
    | nil => exact some rfl
    | cons first part =>
        rw [List.cons_append, List.cons.injEq] at same
        rcases List.append_eq_singleton_iff.mp same.2 with
          ⟨empty, -⟩ | ⟨one, -⟩
        · exact dot (by rw [same.1, empty])
        · exact dots (by rw [same.1, one])
  · intro member
    rcases List.mem_append.mp member with front | back
    · exact slash front
    · exact free back

/-- The parts of two texts in a row: the last of one and the first of the
other are one. -/
theorem splitOn_append (front back : Text) :
    ∃ parts last first rest, front.splitOn '/' = parts ++ [last] ∧
      back.splitOn '/' = first :: rest ∧
      (front ++ back).splitOn '/' = parts ++ (last ++ first) :: rest := by
  rcases List.exists_cons_of_ne_nil (List.splitOn_ne_nil '/' back) with
    ⟨first, rest, behind⟩
  induction front with
  | nil => exact ⟨[], [], first, rest, rfl, behind, behind⟩
  | cons char front induction =>
      rcases induction with ⟨parts, last, first', rest', before, same, all⟩
      rw [behind] at same
      cases same
      rw [List.cons_append, List.splitOn_cons_eq_if_modifyHead,
        List.splitOn_cons_eq_if_modifyHead, before, all]
      split
      · exact ⟨[] :: parts, last, first, rest, rfl, behind, rfl⟩
      · cases parts with
        | nil => exact ⟨[], char :: last, first, rest, rfl, behind, rfl⟩
        | cons part parts =>
            exact ⟨(char :: part) :: parts, last, first, rest, rfl, behind,
              rfl⟩

/-- Paths of names one after the other are a path of names. -/
theorem Plain.append {front back : Text} (plain : Plain front)
    (more : Plain back) : Plain (front ++ back) := by
  rcases splitOn_append front back with
    ⟨parts, last, first, rest, before, behind, all⟩
  intro part member
  rw [all] at member
  rcases List.mem_append.mp member with here | there
  · apply plain
    rw [before]
    exact List.mem_append_left _ here
  · rcases List.mem_cons.mp there with rfl | later
    · apply Name.append
      · apply plain
        rw [before]
        exact List.mem_append_right _ (List.mem_singleton_self last)
      · have name : Name first := by
          apply more
          rw [behind]
          exact List.mem_cons_self
        exact name.2.2.2
    · apply more
      rw [behind]
      exact List.mem_cons_of_mem _ later

/-! ## Places that are led to -/

theorem Proper.append {place more : Place} (proper : Proper place)
    (names : Proper more) : Proper (place ++ more) := by
  intro part member
  rcases List.mem_append.mp member with front | back
  · exact proper part front
  · exact names part back

theorem Proper.enter {place : Place} (proper : Proper place) {part : Text}
    (free : '/' ∉ part) : Proper (enter place part) := by
  rw [Places.enter]
  split
  · exact proper
  · next stays =>
      rcases not_or.mp stays with ⟨some, dot⟩
      split
      · intro other member
        exact proper other (List.mem_of_mem_dropLast member)
      · next dots =>
          apply proper.append
          intro other member
          rw [List.mem_singleton] at member
          subst member
          exact ⟨some, dot, dots, free⟩

theorem Proper.follow {place : Place} (proper : Proper place)
    (path : Text) : Proper (follow place path) := by
  have free : ∀ part ∈ path.splitOn '/', '/' ∉ part :=
    fun part member => (of_mem_splitOn member).1
  rw [Places.follow]
  generalize path.splitOn '/' = parts at free
  induction parts generalizing place with
  | nil => exact proper
  | cons part parts induction =>
      apply induction (proper.enter (free part List.mem_cons_self))
      intro other member
      exact free other (List.mem_cons_of_mem part member)

theorem Proper.goto {place : Place} (proper : Proper place)
    (path : Text) : Proper (goto place path) := by
  rw [Places.goto]
  split
  · apply Proper.follow
    intro part member
    cases member
  · exact proper.follow path

/-! ## Full paths -/

theorem splitOn_fullPath {place : Place} (proper : Proper place) :
    (fullPath place).splitOn '/' = [] :: place := by
  apply List.splitOn_intercalate
  · intro part member
    rcases List.mem_cons.mp member with rfl | member
    · exact List.not_mem_nil
    · exact (proper part member).2.2.2
  · exact List.cons_ne_nil _ _

/-- The full path of a place leads to it from everywhere. -/
theorem goto_fullPath {place : Place} (proper : Proper place)
    (below : place ≠ []) (start : Place) :
    goto start (fullPath place) = place := by
  have rooted : (fullPath place).head? = some '/' := by
    cases place with
    | nil => exact (below rfl).elim
    | cons part place =>
        rw [fullPath, List.intercalate_cons_cons]
        rfl
  rw [goto, if_pos rooted, follow, splitOn_fullPath proper, List.foldl_cons,
    foldl_enter proper]
  rfl

end Runa.Paths.Places
