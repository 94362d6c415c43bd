import Mathlib.Algebra.GroupWithZero.Nat
import Mathlib.Data.List.Infix
import Mathlib.Tactic.Common

/-!
# Text addressed by bytes

A text is a list of Unicode scalar values.  Its length and its offsets are
counted in UTF-8 bytes, and a byte offset which lies inside a character
addresses nothing: `dropBytes` then has no value, where a program that slices
its string there stops.
-/

namespace Runa.Stream.Utf8

/-- A text, one scalar value after the other. -/
abbrev Text := List Char

/-- Length in UTF-8 bytes. -/
def byteLen (text : Text) : Nat :=
  (text.map Char.utf8Size).sum

@[simp]
theorem byteLen_nil : byteLen [] = 0 := rfl

@[simp]
theorem byteLen_cons (char : Char) (text : Text) :
    byteLen (char :: text) = char.utf8Size + byteLen text := by
  simp [byteLen]

@[simp]
theorem byteLen_append (left right : Text) :
    byteLen (left ++ right) = byteLen left + byteLen right := by
  simp [byteLen]

theorem byteLen_eq_zero_iff (text : Text) :
    byteLen text = 0 ↔ text = [] := by
  cases text with
  | nil => simp
  | cons char text =>
      have positive := char.utf8Size_pos
      simp
      omega

/-- The text behind a byte offset; no value inside a character. -/
def dropBytes : Nat → Text → Option Text
  | 0, text => some text
  | _ + 1, [] => none
  | offset + 1, char :: text =>
      if char.utf8Size ≤ offset + 1 then
        dropBytes (offset + 1 - char.utf8Size) text
      else
        none

/-- A byte offset has a value exactly when it ends a prefix of the text. -/
theorem dropBytes_eq_some_iff
    (offset : Nat) (text tail : Text) :
    dropBytes offset text = some tail ↔
      ∃ front, front ++ tail = text ∧ byteLen front = offset := by
  induction text generalizing offset with
  | nil =>
      cases offset with
      | zero =>
          simp only [dropBytes, Option.some.injEq, List.append_eq_nil_iff]
          constructor
          · rintro rfl
            exact ⟨[], ⟨rfl, rfl⟩, rfl⟩
          · rintro ⟨front, ⟨-, rfl⟩, -⟩
            rfl
      | succ offset =>
          simp only [dropBytes, reduceCtorEq, List.append_eq_nil_iff,
            false_iff, not_exists, not_and]
          rintro front ⟨rfl, -⟩
          simp
  | cons char text induction =>
      have positive := char.utf8Size_pos
      cases offset with
      | zero =>
          simp only [dropBytes, Option.some.injEq]
          constructor
          · rintro rfl
            exact ⟨[], rfl, rfl⟩
          · rintro ⟨front, joined, zero⟩
            rw [(byteLen_eq_zero_iff front).mp zero] at joined
            exact joined.symm
      | succ offset =>
          rw [dropBytes]
          split_ifs with fits
          · rw [induction]
            constructor
            · rintro ⟨front, joined, length⟩
              refine ⟨char :: front, by simp [joined], ?_⟩
              rw [byteLen_cons]
              omega
            · rintro ⟨front, joined, length⟩
              cases front with
              | nil => simp at length
              | cons first front =>
                  simp only [List.cons_append, List.cons.injEq] at joined
                  obtain ⟨rfl, joined⟩ := joined
                  rw [byteLen_cons] at length
                  exact ⟨front, joined, by omega⟩
          · simp only [false_iff, not_exists, not_and]
            intro front joined length
            cases front with
            | nil => simp at length
            | cons first front =>
                simp only [List.cons_append, List.cons.injEq] at joined
                obtain ⟨rfl, -⟩ := joined
                rw [byteLen_cons] at length
                omega

/-- Every prefix ends at a byte offset with a value. -/
theorem dropBytes_append (front tail : Text) :
    dropBytes (byteLen front) (front ++ tail) = some tail :=
  (dropBytes_eq_some_iff _ _ _).mpr ⟨front, rfl, rfl⟩

/-- Two suffixes of one text are ordered by their byte lengths. -/
theorem suffix_length_le_of_byteLen_le
    {text left right : Text}
    (leftSuffix : left <:+ text) (rightSuffix : right <:+ text)
    (bytes : byteLen left ≤ byteLen right) :
    left <:+ right := by
  rcases List.suffix_or_suffix_of_suffix leftSuffix rightSuffix with
    shorter | longer
  · exact shorter
  · obtain ⟨front, rfl⟩ := longer
    rw [byteLen_append] at bytes
    have empty : front = [] :=
      (byteLen_eq_zero_iff front).mp (by omega)
    rw [empty]
    exact List.suffix_rfl

/-! ## ASCII -/

/-- All characters are ASCII. -/
def Ascii (text : Text) : Prop :=
  ∀ char ∈ text, char.toNat < 128

theorem utf8Size_of_ascii {char : Char} (ascii : char.toNat < 128) :
    char.utf8Size = 1 := by
  have small : char.val ≤ 0x7F := by
    rw [UInt32.le_iff_toNat_le]
    exact Nat.le_of_lt_succ ascii
  exact if_pos small

theorem byteLen_of_ascii {text : Text} (ascii : Ascii text) :
    byteLen text = text.length := by
  induction text with
  | nil => rfl
  | cons char rest induction =>
      rcases List.forall_mem_cons.mp ascii with ⟨here, there⟩
      rw [byteLen_cons, utf8Size_of_ascii here, induction there,
        List.length_cons, Nat.add_comm]

end Runa.Stream.Utf8
