import Mathlib.Data.List.Basic
import Mathlib.Tactic.Common

/-!
# Framing

When a sequence of symbols that several items were written into, one behind
the other, tells the items apart.  `Separates` says that the item in front
can be read off; words of one length and words behind which a mark stands
have it, and so have pairs.  A list of items can be read off only where their
number is known (`Separates.flatMap`): nothing ends a list.
-/

namespace Runa.Bytes.Framing

universe u v w

variable {Item : Type u} {Item' : Type v} {Symbol : Type w}
  {code : Item → List Symbol} {code' : Item' → List Symbol}
  {rest rest' : List Symbol}

/-- The item in front of a sequence can be read off. -/
def Separates (code : Item → List Symbol) : Prop :=
  ∀ ⦃first second : Item⦄ ⦃rest rest' : List Symbol⦄,
    code first ++ rest = code second ++ rest' →
      first = second ∧ rest = rest'

theorem separates_of_length {width : Nat}
    (lengths : ∀ item, (code item).length = width)
    (injective : Function.Injective code) : Separates code := by
  intro first second rest rest' same
  obtain ⟨here, behind⟩ :=
    List.append_inj same (by rw [lengths, lengths])
  exact ⟨injective here, behind⟩

/-- Two texts without the mark end at the same mark. -/
theorem append_mark_inj {mark : Symbol} {front front' : List Symbol}
    (unmarked : mark ∉ front) (unmarked' : mark ∉ front')
    (same : front ++ mark :: rest = front' ++ mark :: rest') :
    front = front' ∧ rest = rest' := by
  induction front generalizing front' with
  | nil =>
      cases front' with
      | nil => exact ⟨rfl, List.tail_eq_of_cons_eq same⟩
      | cons symbol front' =>
          obtain ⟨rfl, -⟩ := List.cons.inj same
          exact (unmarked' List.mem_cons_self).elim
  | cons symbol front induction =>
      cases front' with
      | nil =>
          obtain ⟨rfl, -⟩ := List.cons.inj same
          exact (unmarked List.mem_cons_self).elim
      | cons symbol' front' =>
          obtain ⟨rfl, behind⟩ := List.cons.inj same
          obtain ⟨rfl, rests⟩ :=
            induction (List.not_mem_of_not_mem_cons unmarked)
              (List.not_mem_of_not_mem_cons unmarked') behind
          exact ⟨rfl, rests⟩

/-- Two texts end alike behind their last marks. -/
theorem mark_append_inj {mark : Symbol} {front front' : List Symbol}
    (unmarked : mark ∉ rest) (unmarked' : mark ∉ rest')
    (same : front ++ mark :: rest = front' ++ mark :: rest') :
    front = front' ∧ rest = rest' := by
  have reversed := congrArg List.reverse same
  simp only [List.reverse_append, List.reverse_cons, List.append_assoc,
    List.singleton_append] at reversed
  obtain ⟨rests, fronts⟩ := append_mark_inj
    (mt List.mem_reverse.mp unmarked) (mt List.mem_reverse.mp unmarked')
    reversed
  exact ⟨List.reverse_inj.mp fronts, List.reverse_inj.mp rests⟩

/-- Words in which the mark does not occur, with the mark behind each. -/
theorem separates_marked {mark : Symbol}
    (unmarked : ∀ item, mark ∉ code item)
    (injective : Function.Injective code) :
    Separates fun item => code item ++ [mark] := by
  intro first second rest rest' same
  rw [List.append_assoc, List.append_assoc] at same
  obtain ⟨here, behind⟩ :=
    append_mark_inj (unmarked first) (unmarked second) same
  exact ⟨injective here, behind⟩

theorem Separates.pair (separates : Separates code)
    (separates' : Separates code') :
    Separates fun item : Item × Item' => code item.1 ++ code' item.2 := by
  intro first second rest rest' same
  rw [List.append_assoc, List.append_assoc] at same
  obtain ⟨here, behind⟩ := separates same
  obtain ⟨there, rests⟩ := separates' behind
  exact ⟨Prod.ext here there, rests⟩

/-- As many items as there are known to be can be read off. -/
theorem Separates.flatMap (separates : Separates code)
    {items items' : List Item} (count : items.length = items'.length)
    (same : items.flatMap code ++ rest = items'.flatMap code ++ rest') :
    items = items' ∧ rest = rest' := by
  induction items generalizing items' with
  | nil =>
      obtain rfl := List.eq_nil_of_length_eq_zero count.symm
      exact ⟨rfl, same⟩
  | cons item items induction =>
      cases items' with
      | nil => cases count
      | cons item' items' =>
          rw [List.flatMap_cons, List.flatMap_cons, List.append_assoc,
            List.append_assoc] at same
          obtain ⟨rfl, behind⟩ := separates same
          obtain ⟨rfl, rests⟩ := induction (Nat.succ.inj count) behind
          exact ⟨rfl, rests⟩

theorem length_flatMap {width : Nat}
    (lengths : ∀ item, (code item).length = width) (items : List Item) :
    (items.flatMap code).length = items.length * width := by
  simp [List.length_flatMap, lengths]

/-- Words of one length are counted by the end of the sequence. -/
theorem flatMap_inj_of_length {width : Nat} (positive : 0 < width)
    (lengths : ∀ item, (code item).length = width)
    (injective : Function.Injective code) {items items' : List Item}
    (same : items.flatMap code = items'.flatMap code) : items = items' := by
  have counts := congrArg List.length same
  rw [length_flatMap lengths, length_flatMap lengths] at counts
  have count := Nat.eq_of_mul_eq_mul_right positive counts
  have separates := separates_of_length lengths injective
  rw [← List.append_nil (items.flatMap code),
    ← List.append_nil (items'.flatMap code)] at same
  exact (separates.flatMap count same).1

end Runa.Bytes.Framing
