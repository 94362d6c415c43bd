import Runa.Edits.Distance
import Runa.Fallible.Steps
import Runa.Stream.Words

/-!
# The word error rate

`word_error_rate`, `tokens` and `levenshtein` of `runa-media/src/asr.rs`.  The
table of distances is filled row by row in two buffers that change places; a
cell of the row that is filled still holds what it held two rows before, until
it is written, and is not read before.
-/

namespace Runa.Media.WordErrors

open Runa.Edits.Distance
open Runa.Fallible.Steps (bind_eq_ok foldlM_upTo_ok)
open Runa.Stream.Utf8 (Text)
open Runa.Stream.Words (splitWhitespace)

/-! ## The table -/

/-- An index out of range ends the program. -/
inductive Panic where
  | range
deriving DecidableEq, Repr

/-- `items[index]` -/
def read {α : Type} (items : List α) (index : Nat) : Except Panic α :=
  match items[index]? with
  | some item => .ok item
  | none => .error .range

/-- `row[index] = value` -/
def write (row : List Nat) (index value : Nat) : Except Panic (List Nat) :=
  if index < row.length then .ok (row.set index value)
  else .error .range

section

variable (a b : List Text)

/-- The body of the inner loop. -/
def fillCell (prev : List Nat) (i : Nat) (cur : List Nat) (j : Nat) :
    Except Panic (List Nat) := do
  let word ← read a (i - 1)
  let other ← read b (j - 1)
  let cost := if word ≠ other then 1 else 0
  let above ← read prev j
  let left ← read cur (j - 1)
  let corner ← read prev (j - 1)
  write cur j (min (min (above + 1) (left + 1)) (corner + cost))

/-- The body of the outer loop, with both rows. -/
def fillRow (rows : List Nat × List Nat) (i : Nat) :
    Except Panic (List Nat × List Nat) := do
  let cur ← write rows.2 0 i
  let cur ← (List.range' 1 b.length).foldlM (fillCell a b rows.1 i) cur
  return (cur, rows.1)

def levenshtein : Except Panic Nat := do
  let prev := List.range (b.length + 1)
  let cur := List.replicate (b.length + 1) 0
  let (prev, _) ← (List.range' 1 a.length).foldlM (fillRow a b) (prev, cur)
  read prev b.length

end

section

variable (isAlphanumeric : Char → Bool) (toLowercase : Char → Text)

def tokens (s : Text) : List Text :=
  ((splitWhitespace s).map fun w =>
      (w.filter fun c => isAlphanumeric c || c == '\'').flatMap toLowercase)
    |>.filter fun w => !w.isEmpty

/-- The rate is `dist as f64 / len as f64`. -/
def wordErrorRate {Rate : Type} (zero one : Rate) (ratio : Nat → Nat → Rate)
    (hypothesis reference : Text) : Except Panic Rate :=
  let hyp := tokens isAlphanumeric toLowercase hypothesis
  let refer := tokens isAlphanumeric toLowercase reference
  if refer.isEmpty then .ok (if hyp.isEmpty then zero else one)
  else do
    let dist ← levenshtein hyp refer
    return ratio dist refer.length

end

/-! ## What the rows hold -/

section

variable {a b : List Text} {i j : Nat} {row prev cur : List Nat}

theorem read_eq_ok {α : Type} {items : List α} {index : Nat} {item : α} :
    read items index = .ok item ↔ items[index]? = some item := by
  rw [read]
  split <;> simp_all

theorem write_of_lt {index : Nat} (within : index < row.length)
    (value : Nat) : write row index value = .ok (row.set index value) :=
  if_pos within

/-- The row of so many words holds the distances of the other beginnings, up
to a column. -/
structure Filled (a b : List Text) (i columns : Nat) (row : List Nat) :
    Prop where
  length : row.length = b.length + 1
  cells : ∀ column ≤ columns,
    row[column]? = some (distance (a.take i) (b.take column))

/-- Writing a cell leaves those in front of it. -/
theorem Filled.set (filled : Filled a b i j row) (within : j < b.length) :
    Filled a b i (j + 1)
      (row.set (j + 1) (distance (a.take i) (b.take (j + 1)))) := by
  constructor
  · rw [List.length_set, filled.length]
  · intro column atMost
    rcases Nat.lt_or_eq_of_le atMost with before | rfl
    · rw [List.getElem?_set_ne (Nat.ne_of_gt before)]
      exact filled.cells column (Nat.le_of_lt_succ before)
    · apply List.getElem?_set_self
      rw [filled.length]
      exact Nat.succ_lt_succ within

theorem distance_cell {word other : Text} (here : a[i]? = some word)
    (there : b[j]? = some other) :
    distance (a.take (i + 1)) (b.take (j + 1)) =
      min (min (distance (a.take i) (b.take (j + 1)) + 1)
          (distance (a.take (i + 1)) (b.take j) + 1))
        (distance (a.take i) (b.take j) + cost word other) := by
  rw [List.take_add_one, List.take_add_one, here, there,
    Option.toList_some, Option.toList_some]
  exact distance_concat_concat _ _ word other

theorem fillCell_filled (first : Filled a b i b.length prev)
    (second : Filled a b (i + 1) j cur) (row : i < a.length)
    (column : j < b.length) :
    ∃ next, fillCell a b prev (i + 1) cur (j + 1) = .ok next ∧
      Filled a b (i + 1) (j + 1) next := by
  have word : read a i = .ok a[i] :=
    read_eq_ok.mpr (List.getElem?_eq_getElem row)
  have other : read b j = .ok b[j] :=
    read_eq_ok.mpr (List.getElem?_eq_getElem column)
  have above := read_eq_ok.mpr (first.cells (j + 1) column)
  have left := read_eq_ok.mpr (second.cells j (Nat.le_refl j))
  have corner := read_eq_ok.mpr (first.cells j column.le)
  have within : j + 1 < cur.length := by
    rw [second.length]
    exact Nat.succ_lt_succ column
  refine ⟨_, ?_, second.set column⟩
  have cell := distance_cell (List.getElem?_eq_getElem row)
    (List.getElem?_eq_getElem column)
  have cost : (if a[i] ≠ b[j] then 1 else 0) = cost a[i] b[j] := ite_not ..
  rw [fillCell, Nat.add_sub_cancel, Nat.add_sub_cancel,
    word, other, above, left, corner, cell, ← cost]
  exact write_of_lt within _

/-- One pass of the outer loop goes on by one word. -/
theorem fillRow_filled (rows : List Nat × List Nat)
    (first : Filled a b i b.length rows.1)
    (spare : rows.2.length = b.length + 1) (row : i < a.length) :
    ∃ next, fillRow a b rows (i + 1) = .ok next ∧
      Filled a b (i + 1) b.length next.1 ∧
        next.2.length = b.length + 1 := by
  have within : 0 < rows.2.length := by
    rw [spare]
    exact Nat.succ_pos _
  have begun : Filled a b (i + 1) 0 (rows.2.set 0 (i + 1)) := by
    constructor
    · rw [List.length_set, spare]
    · intro column none
      rw [Nat.le_zero.mp none, List.getElem?_set_self within, List.take_zero,
        distance_nil_right, List.length_take_of_le row]
  rcases foldlM_upTo_ok (fillCell a b rows.1 (i + 1)) b.length
      (Filled a b (i + 1)) begun
      (fun j column cur second => fillCell_filled first second row column)
    with ⟨cur, ran, filled⟩
  refine ⟨(cur, rows.1), ?_, filled, first.length⟩
  rw [fillRow, write_of_lt within]
  exact bind_eq_ok.mpr ⟨_, rfl, bind_eq_ok.mpr ⟨cur, ran, rfl⟩⟩

theorem filled_range (a b : List Text) :
    Filled a b 0 b.length (List.range (b.length + 1)) := by
  constructor
  · exact List.length_range
  · intro column within
    rw [List.getElem?_range (Nat.lt_succ_of_le within), List.take_zero,
      distance_nil_left, List.length_take_of_le within]

/-- The last cell of the last row. -/
theorem levenshtein_eq (a b : List Text) :
    levenshtein a b = .ok (distance a b) := by
  let start : List Nat × List Nat :=
    (List.range (b.length + 1), List.replicate (b.length + 1) 0)
  have begun : Filled a b 0 b.length start.1 ∧
      start.2.length = b.length + 1 :=
    ⟨filled_range a b, List.length_replicate⟩
  rcases @foldlM_upTo_ok _ _ start (fillRow a b) a.length
      (fun i rows => Filled a b i b.length rows.1 ∧
        rows.2.length = b.length + 1)
      begun (fun i row rows held => fillRow_filled rows held.1 held.2 row)
    with ⟨rows, ran, filled, -⟩
  have last := filled.cells b.length (Nat.le_refl _)
  rw [List.take_length, List.take_length] at last
  rw [levenshtein]
  exact bind_eq_ok.mpr ⟨rows, ran, read_eq_ok.mpr last⟩

end

/-- The rate is made of the edit distance of the two lists of words. -/
theorem wordErrorRate_eq {isAlphanumeric : Char → Bool}
    {toLowercase : Char → Text} {Rate : Type} (zero one : Rate)
    (ratio : Nat → Nat → Rate) (hypothesis reference : Text) :
    wordErrorRate isAlphanumeric toLowercase zero one ratio hypothesis
        reference =
      let hyp := tokens isAlphanumeric toLowercase hypothesis
      let refer := tokens isAlphanumeric toLowercase reference
      .ok
        (if refer = [] then (if hyp = [] then zero else one)
        else ratio (distance hyp refer) refer.length) := by
  rw [wordErrorRate]
  simp only [List.isEmpty_iff, levenshtein_eq]
  split
  · rfl
  · rfl

/--
What is returned is the least number of insertions, deletions and
substitutions that turn the one list into the other.
-/
theorem levenshtein_least (a b : List Text) :
    ∃ least, levenshtein a b = .ok least ∧
      IsLeast {count | Turns count a b} least ∧ least = distance a b ∧
        (least = 0 ↔ a = b) ∧ levenshtein b a = .ok least ∧
          least ≤ max a.length b.length := by
  refine ⟨distance a b, levenshtein_eq a b, isLeast_distance a b, rfl,
    distance_eq_zero_iff, ?_, distance_le_max a b⟩
  rw [levenshtein_eq, distance_comm]

end Runa.Media.WordErrors
