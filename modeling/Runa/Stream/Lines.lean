import Mathlib.Data.List.DropRight
import Runa.Stream.Utf8

/-!
# Lines and blanks

A text by its lines, as `str::lines` takes it apart: a line ends at a line
feed, a carriage return right before the line feed belongs to the end, and
what stands behind the last line feed is a line if it is not empty.  And a
text without the blanks around it, as `str::trim` leaves it.
-/

namespace Runa.Stream.Lines

open Runa.Stream.Utf8

/-! ## Lines -/

/-- A line without the carriage return at its end. -/
def dropReturn (line : Text) : Text :=
  if line.getLast? = some '\r' then line.dropLast else line

/-- The lines of a text, behind the characters read of the first one. -/
def linesFrom (line : Text) : Text → List Text
  | [] => if line = [] then [] else [line]
  | char :: rest =>
    if char = '\n' then dropReturn line :: linesFrom [] rest
    else linesFrom (line ++ [char]) rest

/-- `str::lines` -/
def lines (text : Text) : List Text :=
  linesFrom [] text

theorem linesFrom_cons (line : Text) (char : Char) (rest : Text) :
    linesFrom line (char :: rest) =
      if char = '\n' then dropReturn line :: linesFrom [] rest
      else linesFrom (line ++ [char]) rest :=
  rfl

@[simp]
theorem lines_nil : lines [] = [] := rfl

theorem linesFrom_append {line : Text} (one : '\n' ∉ line)
    (begun rest : Text) :
    linesFrom begun (line ++ rest) = linesFrom (begun ++ line) rest := by
  induction line generalizing begun with
  | nil => rw [List.nil_append, List.append_nil]
  | cons char more ih =>
      obtain ⟨here, there⟩ := not_or.mp (mt List.mem_cons.mpr one)
      rw [List.cons_append, linesFrom_cons, if_neg (Ne.symm here), ih there,
        List.append_assoc, List.singleton_append]

/-- The first line, where one ends. -/
theorem lines_cons {line : Text} (one : '\n' ∉ line) (rest : Text) :
    lines (line ++ '\n' :: rest) = dropReturn line :: lines rest := by
  rw [lines, linesFrom_append one, List.nil_append, linesFrom_cons,
    if_pos rfl]
  rfl

/-- A text which no line feed ends. -/
theorem lines_last {line : Text} (one : '\n' ∉ line) (some : line ≠ []) :
    lines line = [line] := by
  have whole := linesFrom_append one [] []
  rw [List.append_nil, List.nil_append] at whole
  exact whole.trans (if_neg some)

theorem dropReturn_eq {line : Text} (plain : '\r' ∉ line) :
    dropReturn line = line :=
  if_neg fun last => plain (List.mem_of_getLast? last)

/-- Lines, each with a line feed behind it. -/
def unlines (list : List Text) : Text :=
  list.flatMap fun line => line ++ ['\n']

/-- Neither end of a line is in the text. -/
def OneLine (line : Text) : Prop :=
  '\n' ∉ line ∧ '\r' ∉ line

theorem lines_unlines {list : List Text}
    (one : ∀ line ∈ list, OneLine line) : lines (unlines list) = list := by
  induction list with
  | nil => rfl
  | cons line later ih =>
      have here := one line List.mem_cons_self
      have there := ih fun other member =>
        one other (List.mem_cons_of_mem _ member)
      rw [unlines, List.flatMap_cons, List.append_assoc,
        List.singleton_append, lines_cons here.1, dropReturn_eq here.2]
      exact congrArg _ there

theorem notMem_dropReturn {char : Char} {line : Text}
    (absent : char ∉ line) : char ∉ dropReturn line := by
  rw [dropReturn]
  split
  · exact fun member => absent (List.mem_of_mem_dropLast member)
  · exact absent

/-- The parts of a text between two marks have its characters, and not the
mark. -/
theorem of_mem_splitOn {mark : Char} {text part : Text}
    (piece : part ∈ text.splitOn mark) : mark ∉ part ∧ part ⊆ text := by
  induction text generalizing part with
  | nil =>
      rw [List.splitOn_nil, List.mem_singleton] at piece
      subst piece
      exact ⟨List.not_mem_nil, List.nil_subset _⟩
  | cons char more ih =>
      rw [List.splitOn_cons_eq_if_modifyHead] at piece
      split at piece
      · rcases List.mem_cons.mp piece with rfl | later
        · exact ⟨List.not_mem_nil, List.nil_subset _⟩
        · exact ⟨(ih later).1, List.subset_cons_of_subset _ (ih later).2⟩
      · next other =>
          have apart : mark ≠ char := fun same => other (by simp [same])
          cases parts : more.splitOn mark with
          | nil => exact absurd parts (List.splitOn_ne_nil mark more)
          | cons first later =>
              rw [parts, List.modifyHead_cons] at piece
              rcases List.mem_cons.mp piece with rfl | behind
              · obtain ⟨free, within⟩ :=
                  ih (parts ▸ List.mem_cons_self : first ∈ _)
                exact ⟨mt List.mem_cons.mp (not_or.mpr ⟨apart, free⟩),
                  List.cons_subset_cons _ within⟩
              · obtain ⟨free, within⟩ :=
                  ih (parts ▸ List.mem_cons_of_mem _ behind : part ∈ _)
                exact ⟨free, List.subset_cons_of_subset _ within⟩

/-! ## Writing a text line by line -/

/-- The lines that a line feed ends. -/
def ended (text : Text) : List Text :=
  if text.getLast? = some '\n' then lines text else (lines text).dropLast

/-- Every line written anew; no line feed is put behind the last line where
none was. -/
def relines (write : Text → Text) (text : Text) : Text :=
  let out := unlines ((lines text).map write)
  if text.getLast? ≠ some '\n' ∧ out.getLast? = some '\n' then out.dropLast
  else out

@[simp]
theorem unlines_nil : unlines [] = [] := rfl

theorem unlines_append (one other : List Text) :
    unlines (one ++ other) = unlines one ++ unlines other :=
  List.flatMap_append

theorem unlines_singleton (line : Text) : unlines [line] = line ++ ['\n'] :=
  List.flatMap_singleton ..

theorem getLast?_unlines {list : List Text} (some : list ≠ []) :
    (unlines list).getLast? = Option.some '\n' := by
  rw [← List.dropLast_concat_getLast some, unlines_append,
    unlines_singleton, ← List.append_assoc, List.getLast?_concat]

/-- A text by its line feeds: what stands in front of each, and the rest. -/
theorem exists_unlines (text : Text) :
    ∃ list rest, (∀ line ∈ list, '\n' ∉ line) ∧ '\n' ∉ rest ∧
      text = unlines list ++ rest := by
  induction text with
  | nil => exact ⟨[], [], nofun, List.not_mem_nil, rfl⟩
  | cons char more ih =>
      obtain ⟨list, rest, one, none, rfl⟩ := ih
      by_cases ends : char = '\n'
      · subst ends
        refine ⟨[] :: list, rest, ?_, none, rfl⟩
        exact List.forall_mem_cons.mpr ⟨List.not_mem_nil, one⟩
      · have apart : ∀ {line : Text}, '\n' ∉ line → '\n' ∉ char :: line :=
          fun free => mt List.mem_cons.mp (not_or.mpr ⟨Ne.symm ends, free⟩)
        cases list with
        | nil => exact ⟨[], char :: rest, nofun, apart none, rfl⟩
        | cons line later =>
            obtain ⟨here, there⟩ := List.forall_mem_cons.mp one
            exact ⟨(char :: line) :: later, rest,
              List.forall_mem_cons.mpr ⟨apart here, there⟩, none, rfl⟩

section

variable {list : List Text} {rest : Text}

theorem lines_unlines_append (one : ∀ line ∈ list, '\n' ∉ line)
    (none : '\n' ∉ rest) :
    lines (unlines list ++ rest) =
      list.map dropReturn ++ if rest = [] then [] else [rest] := by
  induction list with
  | nil =>
      by_cases empty : rest = []
      · subst empty
        rfl
      · rw [unlines_nil, List.nil_append, lines_last none empty,
          if_neg empty]
        rfl
  | cons line later ih =>
      obtain ⟨here, there⟩ := List.forall_mem_cons.mp one
      show lines ((line ++ ['\n']) ++ unlines later ++ rest) = _
      rw [List.append_assoc, List.append_assoc, List.singleton_append,
        lines_cons here, ih there]
      rfl

theorem getLast?_of_notMem (none : '\n' ∉ rest) (some : rest ≠ []) :
    (unlines list ++ rest).getLast? ≠ Option.some '\n' := by
  rw [List.getLast?_append_of_ne_nil _ some]
  exact fun last => none (List.mem_of_getLast? last)

theorem ended_unlines_append (one : ∀ line ∈ list, '\n' ∉ line)
    (none : '\n' ∉ rest) :
    ended (unlines list ++ rest) = list.map dropReturn := by
  rw [ended, lines_unlines_append one none]
  by_cases empty : rest = []
  · subst empty
    cases list with
    | nil => rfl
    | cons line later =>
        rw [List.append_nil, getLast?_unlines (List.cons_ne_nil _ _),
          if_pos rfl, if_pos rfl, List.append_nil]
  · rw [if_neg (getLast?_of_notMem none empty), if_neg empty,
      List.dropLast_concat]

theorem relines_unlines_append (write : Text → Text)
    (one : ∀ line ∈ list, '\n' ∉ line) (none : '\n' ∉ rest) :
    relines write (unlines list ++ rest) =
      unlines (list.map fun line => write (dropReturn line)) ++
        if rest = [] then [] else write rest := by
  rw [relines, lines_unlines_append one none]
  by_cases empty : rest = []
  · subst empty
    rw [if_pos rfl, if_pos rfl, List.append_nil, List.append_nil,
      List.append_nil, List.map_map]
    cases list with
    | nil => rfl
    | cons line later =>
        rw [getLast?_unlines (List.cons_ne_nil _ _),
          if_neg fun ends => ends.1 rfl]
        rfl
  · have last : (unlines ((list.map dropReturn ++ [rest]).map write)) =
        unlines (list.map fun line => write (dropReturn line)) ++
          write rest ++ ['\n'] := by
      rw [List.map_append, unlines_append, List.map_map, List.map_singleton,
        unlines_singleton, List.append_assoc]
      rfl
    rw [if_neg empty, if_neg empty, last,
      if_pos ⟨getLast?_of_notMem none empty, List.getLast?_concat⟩,
      List.dropLast_concat]

end

/-- What was written is read back, except for a carriage return at the end of
a line that a line feed ends. -/
theorem lines_relines {write : Text → Text} (text : Text)
    (one : ∀ line, '\n' ∉ line → '\n' ∉ write line)
    (some : ∀ line, line ≠ [] → write line ≠ []) :
    ∃ rest, lines text = ended text ++ rest ∧
      ended (relines write text) =
        (ended text).map (fun line => dropReturn (write line)) ∧
      lines (relines write text) =
        ended (relines write text) ++ rest.map write := by
  obtain ⟨list, rest, free, none, rfl⟩ := exists_unlines text
  have freeNew : ∀ line ∈ list.map fun line => write (dropReturn line),
      '\n' ∉ line := by
    intro line member
    obtain ⟨old, there, rfl⟩ := List.mem_map.mp member
    exact one _ (notMem_dropReturn (free old there))
  have noneNew : '\n' ∉ if rest = [] then [] else write rest := by
    split
    · exact List.not_mem_nil
    · exact one rest none
  refine ⟨if rest = [] then [] else [rest], ?_, ?_, ?_⟩
  · rw [ended_unlines_append free none, lines_unlines_append free none]
  · rw [relines_unlines_append write free none,
      ended_unlines_append freeNew noneNew, ended_unlines_append free none,
      List.map_map, List.map_map]
    rfl
  · rw [relines_unlines_append write free none,
      ended_unlines_append freeNew noneNew,
      lines_unlines_append freeNew noneNew]
    congr 1
    by_cases empty : rest = []
    · simp only [if_pos empty, if_pos, List.map_nil]
    · simp only [if_neg empty, if_neg (some rest empty),
        List.map_singleton]

/-! ## Blanks -/

/-- `char::is_whitespace` -/
def isWhitespace (char : Char) : Bool :=
  let code := char.toNat
  (9 ≤ code && code ≤ 13) || code = 32 || code = 0x85 || code = 0xA0 ||
    code = 0x1680 || (0x2000 ≤ code && code ≤ 0x200A) || code = 0x2028 ||
    code = 0x2029 || code = 0x202F || code = 0x205F || code = 0x3000

/-- `str::trim_start` -/
def trimStart (text : Text) : Text :=
  text.dropWhile isWhitespace

/-- `str::trim_end` -/
def trimEnd (text : Text) : Text :=
  text.rdropWhile isWhitespace

/-- `str::trim` -/
def trim (text : Text) : Text :=
  trimEnd (trimStart text)

/-- Nothing but blanks. -/
def Blank (text : Text) : Prop :=
  ∀ char ∈ text, isWhitespace char = true

theorem trimStart_cons {char : Char} (visible : isWhitespace char = false)
    (rest : Text) : trimStart (char :: rest) = char :: rest := by
  rw [trimStart, List.dropWhile_cons_of_neg (by simp [visible])]

/-- What is in front of the blanks at the end stays. -/
theorem trimEnd_cons {char : Char} (visible : isWhitespace char = false)
    (rest : Text) : trimEnd (char :: rest) = char :: trimEnd rest := by
  rw [trimEnd, trimEnd, List.rdropWhile, List.rdropWhile,
    List.reverse_cons, List.dropWhile_append]
  split
  · next blank =>
      rw [List.isEmpty_iff] at blank
      rw [blank, List.dropWhile_cons_of_neg (by simp [visible])]
      rfl
  · rw [List.reverse_append]
    rfl

theorem trim_cons {char : Char} (visible : isWhitespace char = false)
    (rest : Text) : trim (char :: rest) = char :: trimEnd rest := by
  rw [trim, trimStart_cons visible, trimEnd_cons visible]

theorem trimStart_blank {pad : Text} (blank : Blank pad) (text : Text) :
    trimStart (pad ++ text) = trimStart text := by
  induction pad with
  | nil => rfl
  | cons char more ih =>
      rw [List.cons_append, trimStart,
        List.dropWhile_cons_of_pos (blank char List.mem_cons_self)]
      exact ih fun other member =>
        blank other (List.mem_cons_of_mem _ member)

theorem trimStart_eq {text : Text}
    (visible : ∀ char ∈ text.head?, isWhitespace char = false) :
    trimStart text = text := by
  cases text with
  | nil => rfl
  | cons char rest => exact trimStart_cons (visible char rfl) rest

/-- No blank stands in front of a trimmed text. -/
theorem head?_trimStart (text : Text) :
    ∀ char ∈ (trimStart text).head?, isWhitespace char = false := by
  intro char front
  have held := List.head?_dropWhile_not isWhitespace text
  rw [trimStart] at front
  rw [Option.mem_def.mp front] at held
  exact held

/-- Blanks at the end are gone. -/
theorem trim_append_blank (text : Text) {pad : Text} (blank : Blank pad) :
    trim (text ++ pad) = trim text := by
  rw [trim, trim, trimStart, trimStart, List.dropWhile_append]
  split
  · next empty =>
      rw [List.isEmpty_iff.mp empty, List.dropWhile_eq_nil_iff.mpr blank]
  · rw [trimEnd, trimEnd, List.rdropWhile, List.reverse_append,
      List.dropWhile_append_of_pos]
    · rfl
    · exact fun char member => blank char (List.mem_reverse.mp member)

/-- Blanks in front are gone. -/
theorem trim_blank_append {pad : Text} (blank : Blank pad) (text : Text) :
    trim (pad ++ text) = trim text := by
  rw [trim, trimStart_blank blank, trim]

theorem trim_dropReturn (line : Text) : trim (dropReturn line) = trim line := by
  rw [dropReturn]
  split
  · next last =>
      have whole : line.dropLast ++ ['\r'] = line :=
        List.dropLast_append_getLast? '\r' last
      conv_rhs => rw [← whole]
      have blank : Blank ['\r'] := List.forall_mem_singleton.mpr rfl
      exact (trim_append_blank _ blank).symm
  · rfl

theorem trimEnd_begins (text : Text) : trimEnd text <+: text :=
  List.rdropWhile_prefix _ text

theorem mem_of_mem_trim {char : Char} {text : Text}
    (member : char ∈ trim text) : char ∈ text :=
  (List.dropWhile_suffix _).mem
    ((trimEnd_begins (trimStart text)).mem member)

/-- A trimmed text has nothing more to trim. -/
theorem trim_trim (text : Text) : trim (trim text) = trim text := by
  have front : ∀ char ∈ (trim text).head?, isWhitespace char = false := by
    intro char here
    apply head?_trimStart text char
    obtain ⟨rest, whole⟩ := trimEnd_begins (trimStart text)
    rw [← whole]
    exact List.mem_head?_append_of_mem_head? here
  rw [trim, trimStart_eq front]
  exact List.rdropWhile_idempotent _ _

theorem trim_of_visible {text : Text}
    (visible : ∀ char ∈ text, isWhitespace char = false) :
    trim text = text := by
  have front : trimStart text = text :=
    trimStart_eq fun char here => visible char (List.mem_of_head? here)
  rw [trim, front, trimEnd, List.rdropWhile_eq_self_iff]
  intro some
  rw [visible _ (List.getLast_mem some)]
  exact Bool.false_ne_true

end Runa.Stream.Lines
