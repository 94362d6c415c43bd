import Runa.Memory.Registry

/-!
# The registry as a table of locks

The rows that were written are read back, every other line is left alone, and
so a call is granted, refused and seen by the others as on a table of locks.
One line does not survive a write: text outside the table whose line ends in
two carriage returns loses one of them.
-/

namespace Runa.Memory.LockTable

open Runa.Stream.Utf8
open Runa.Stream.Lines
open Runa.Memory.Registry

/-! ## The shape of a registry -/

/-- What a cell of the table holds. -/
structure Cell (cell : Text) : Prop where
  trimmed : trim cell = cell
  noBar : '|' ∉ cell
  oneLine : '\n' ∉ cell

/-- Four cells between five bars. -/
def FourCells (line : Text) : Prop :=
  (cells line).length = 6 ∧ (cells line).getLast? = some []

instance : DecidablePred FourCells := fun _ =>
  inferInstanceAs (Decidable (_ ∧ _))

/-- The two states of a row. -/
inductive Settled (row : Row) : Prop where
  | free (status : row.status = "free".toList) (agent : row.agent = [])
      (started : row.started = [])
  | busy (status : row.status = "in progress".toList)
      (agent : row.agent ≠ []) (started : row.started ≠ [])

/-- The texts a registry is made for. -/
structure Shaped (text : Text) : Prop where
  fourCells : ∀ line ∈ lines text, (parseRowLine line).isSome →
    FourCells line
  distinct : ((parseRows text).map Row.taskId).Nodup
  settled : ∀ row ∈ parseRows text, Settled row

/-- What one sees of a line: the task of a row, or the line. -/
inductive Entry where
  | row (task : Text)
  | other (line : Text)
  deriving DecidableEq

def entry (line : Text) : Entry :=
  match parseRowLine line with
  | some row => .row row.taskId
  | none => .other line

/-- The rows in their order and all that stands between them. -/
def outline (text : Text) : List Entry :=
  (lines text).map entry

/-- No line outside the table that a line feed ends has a carriage return
left at its end. -/
def Clean (text : Text) : Prop :=
  ∀ line ∈ ended text, parseRowLine line = none →
    line.getLast? ≠ some '\r'

/-! ## A row that was written is read back -/

theorem Cell.of_trim {part : Text} (noBar : '|' ∉ part)
    (oneLine : '\n' ∉ part) : Cell (trim part) :=
  ⟨trim_trim part, mt mem_of_mem_trim noBar, mt mem_of_mem_trim oneLine⟩

theorem cell_nil : Cell [] := ⟨rfl, List.not_mem_nil, List.not_mem_nil⟩

/-- The rows a line can hold. -/
structure Tidy (row : Row) : Prop where
  task : isTaskId row.taskId = true
  taskCell : Cell row.taskId
  statusCell : Cell row.status
  agentCell : Cell row.agent
  startedCell : Cell row.started

theorem cell_of_mem {line cell : Text} (oneLine : '\n' ∉ line)
    (member : cell ∈ cells line) : Cell cell := by
  obtain ⟨part, piece, rfl⟩ := List.mem_map.mp member
  obtain ⟨noBar, within⟩ := of_mem_splitOn piece
  exact Cell.of_trim noBar
    fun here => oneLine (mem_of_mem_trim (within here))

theorem tidy_of_parse {line : Text} {row : Row} (oneLine : '\n' ∉ line)
    (read : parseRowLine line = some row) : Tidy row := by
  rw [parseRowLine] at read
  split at read
  · exact absurd read nofun
  split at read
  · next before task status agent started after later parts =>
      have cell : ∀ cell ∈ [task, status, agent, started], Cell cell := by
        intro cell member
        apply cell_of_mem oneLine
        rw [parts]
        simp only [List.mem_cons] at member ⊢
        tauto
      simp only [List.forall_mem_cons] at cell
      split at read
      · exact absurd read nofun
      split at read
      · next valid =>
          obtain rfl := Option.some.inj read
          exact ⟨valid, cell.1, cell.2.1, cell.2.2.1, cell.2.2.2.1⟩
      · exact absurd read nofun
  · exact absurd read nofun

/-- A cell with a blank on either side. -/
def padded (cell : Text) : Text :=
  ' ' :: cell ++ [' ']

theorem blank_space : Blank [' '] :=
  List.forall_mem_singleton.mpr rfl

theorem Cell.trim_padded {cell : Text} (tidy : Cell cell) :
    trim (padded cell) = cell := by
  rw [padded, List.cons_append, ← List.singleton_append,
    trim_blank_append blank_space, trim_append_blank _ blank_space,
    tidy.trimmed]

theorem Cell.noBar_padded {cell : Text} (tidy : Cell cell) :
    '|' ∉ padded cell := by
  simp [padded, tidy.noBar]

theorem formatRow_eq (row : Row) :
    formatRow row =
      ['|'].intercalate
        [[], padded row.taskId, padded row.status, padded row.agent,
          padded row.started, []] := by
  simp [formatRow, padded, bar]

/-- A bar stands at both ends. -/
theorem exists_formatRow (row : Row) :
    ∃ middle, formatRow row = '|' :: middle ++ ['|'] :=
  ⟨' ' :: row.taskId ++ bar ++ row.status ++ bar ++ row.agent ++ bar ++
    row.started ++ [' '], by simp [formatRow]⟩

theorem trim_formatRow (row : Row) :
    trim (formatRow row) = formatRow row := by
  obtain ⟨middle, whole⟩ := exists_formatRow row
  rw [whole, List.cons_append, trim_cons rfl, trimEnd,
    List.rdropWhile_concat_neg _ _ _ (by decide)]

theorem cells_formatRow {row : Row} (tidy : Tidy row) :
    cells (formatRow row) =
      [[], row.taskId, row.status, row.agent, row.started, []] := by
  rw [cells, trim_formatRow, formatRow_eq, List.splitOn_intercalate]
  · simp only [List.map_cons, List.map_nil, tidy.taskCell.trim_padded,
      tidy.statusCell.trim_padded, tidy.agentCell.trim_padded,
      tidy.startedCell.trim_padded, cell_nil.trimmed]
  · simp only [List.forall_mem_cons]
    exact ⟨List.not_mem_nil, tidy.taskCell.noBar_padded,
      tidy.statusCell.noBar_padded, tidy.agentCell.noBar_padded,
      tidy.startedCell.noBar_padded, List.not_mem_nil, nofun⟩
  · exact List.cons_ne_nil _ _

theorem fourCells_formatRow {row : Row} (tidy : Tidy row) :
    FourCells (formatRow row) := by
  rw [FourCells, cells_formatRow tidy]
  exact ⟨rfl, rfl⟩

theorem notTitle_of_isTaskId {task : Text} (valid : isTaskId task = true) :
    ¬ (task = "Task".toList ∨ task = "------".toList) := by
  rintro (title | rule)
  · rw [title] at valid
    exact absurd valid (by decide)
  · rw [rule] at valid
    exact absurd valid (by decide)

theorem parseRowLine_formatRow {row : Row} (tidy : Tidy row) :
    parseRowLine (formatRow row) = some row := by
  have front : (trim (formatRow row)).head? = some '|' := by
    rw [trim_formatRow]
    rfl
  rw [parseRowLine, if_neg (not_not_intro front), cells_formatRow tidy]
  simp only [if_neg (notTitle_of_isTaskId tidy.task), tidy.task, if_true]

theorem oneLine_formatRow {row : Row} (tidy : Tidy row) :
    '\n' ∉ formatRow row := by
  simp [formatRow, bar, tidy.taskCell.oneLine, tidy.statusCell.oneLine,
    tidy.agentCell.oneLine, tidy.startedCell.oneLine]

theorem dropReturn_formatRow (row : Row) :
    dropReturn (formatRow row) = formatRow row := by
  obtain ⟨middle, whole⟩ := exists_formatRow row
  rw [dropReturn, whole, List.getLast?_concat, if_neg]
  exact fun same => absurd (Option.some.inj same) (by decide)

/-! ## The rows of a rewritten text -/

theorem parseRowLine_dropReturn (line : Text) :
    parseRowLine (dropReturn line) = parseRowLine line := by
  simp only [parseRowLine, cells, trim_dropReturn]

/-- A line that starts with `#` is no row anyway. -/
theorem parseRows_eq (text : Text) :
    parseRows text = (lines text).filterMap parseRowLine := by
  apply List.filterMap_congr
  intro line _
  split
  · next comment =>
      cases line with
      | nil => exact absurd comment nofun
      | cons char rest =>
          obtain rfl : char = '#' := Option.some.inj comment
          rw [parseRowLine, trim_cons rfl, if_pos]
          exact fun bar => absurd (Option.some.inj bar) (by decide)
  · rfl

theorem notMem_of_mem_lines {text line : Text}
    (member : line ∈ lines text) : '\n' ∉ line := by
  obtain ⟨list, rest, free, none, rfl⟩ := exists_unlines text
  rw [lines_unlines_append free none, List.mem_append] at member
  rcases member with ended | last
  · obtain ⟨old, there, rfl⟩ := List.mem_map.mp ended
    exact notMem_dropReturn (free old there)
  · split at last
    · exact absurd last List.not_mem_nil
    · exact List.mem_singleton.mp last ▸ none

theorem tidy_of_mem {text : Text} {row : Row}
    (member : row ∈ parseRows text) : Tidy row := by
  rw [parseRows_eq] at member
  obtain ⟨line, there, read⟩ := List.mem_filterMap.mp member
  exact tidy_of_parse (notMem_of_mem_lines there) read

/-- What the map makes of a row. -/
def update (rows : List Row) (row : Row) : Row :=
  (lookup rows row.taskId).getD row

theorem mem_of_lookup {rows : List Row} {task : Text} {row : Row}
    (found : lookup rows task = some row) :
    row ∈ rows ∧ row.taskId = task := by
  refine ⟨List.mem_reverse.mp (List.mem_of_find?_eq_some found), ?_⟩
  rw [lookup] at found
  simpa using List.find?_some found

theorem update_taskId (rows : List Row) (row : Row) :
    (update rows row).taskId = row.taskId := by
  rw [update]
  cases found : lookup rows row.taskId with
  | none => rfl
  | some updated => exact (mem_of_lookup found).2

section

variable {rows : List Row}

theorem rewriteLine_of_none {line : Text}
    (other : parseRowLine line = none) : rewriteLine rows line = line := by
  rw [rewriteLine, other]

theorem rewriteLine_of_lookup {line : Text} {row updated : Row}
    (read : parseRowLine line = some row)
    (found : lookup rows row.taskId = some updated) :
    rewriteLine rows line = formatRow updated := by
  simp only [rewriteLine, read, found]

/-- A line stays as it is or becomes a row of the list. -/
theorem rewriteLine_cases (rows : List Row) (line : Text) :
    rewriteLine rows line = line ∨
      ∃ row ∈ rows, rewriteLine rows line = formatRow row := by
  cases read : parseRowLine line with
  | none => exact Or.inl (rewriteLine_of_none read)
  | some row =>
      cases found : lookup rows row.taskId with
      | none =>
          left
          simp only [rewriteLine, read, found]
      | some updated =>
          exact Or.inr ⟨updated, (mem_of_lookup found).1,
            rewriteLine_of_lookup read found⟩

theorem oneLine_rewriteLine (fed : ∀ row ∈ rows, '\n' ∉ formatRow row)
    {line : Text} (oneLine : '\n' ∉ line) :
    '\n' ∉ rewriteLine rows line := by
  rcases rewriteLine_cases rows line with same | ⟨row, member, written⟩
  · rwa [same]
  · rw [written]
    exact fed row member

/-- The lines of the rewritten text, those a line feed ends first. -/
theorem lines_rewriteRows (fed : ∀ row ∈ rows, '\n' ∉ formatRow row)
    (text : Text) :
    ∃ rest, lines text = ended text ++ rest ∧
      ended (rewriteRows text rows) =
        (ended text).map (fun line => dropReturn (rewriteLine rows line)) ∧
      lines (rewriteRows text rows) =
        ended (rewriteRows text rows) ++ rest.map (rewriteLine rows) := by
  apply lines_relines
  · exact fun line oneLine => oneLine_rewriteLine fed oneLine
  · intro line some
    rcases rewriteLine_cases rows line with same | ⟨row, _, written⟩
    · rwa [same]
    · rw [written]
      exact List.cons_ne_nil _ _

/-- What a line shows, where the rows of the list are read back as others. -/
theorem parseRowLine_rewriteLine_of {shown : Row → Row}
    (read : ∀ row ∈ rows, parseRowLine (formatRow row) = some (shown row))
    (line : Text) :
    parseRowLine (rewriteLine rows line) =
      (parseRowLine line).map fun row =>
        ((lookup rows row.taskId).map shown).getD row := by
  cases here : parseRowLine line with
  | none => rw [rewriteLine_of_none here, here, Option.map_none]
  | some row =>
      rw [Option.map_some]
      cases found : lookup rows row.taskId with
      | none =>
          have same : rewriteLine rows line = line := by
            simp only [rewriteLine, here, found]
          rw [same, here, Option.map_none, Option.getD_none]
      | some updated =>
          rw [rewriteLine_of_lookup here found, Option.map_some,
            Option.getD_some]
          exact read _ (mem_of_lookup found).1

theorem parseRows_rewriteRows_of {shown : Row → Row}
    (fed : ∀ row ∈ rows, '\n' ∉ formatRow row)
    (read : ∀ row ∈ rows, parseRowLine (formatRow row) = some (shown row))
    (text : Text) :
    parseRows (rewriteRows text rows) =
      (parseRows text).map fun row =>
        ((lookup rows row.taskId).map shown).getD row := by
  obtain ⟨rest, whole, front, back⟩ := lines_rewriteRows fed text
  rw [parseRows_eq, parseRows_eq, back, front, whole, List.filterMap_append,
    List.filterMap_append, List.map_append, List.filterMap_map,
    List.filterMap_map, List.map_filterMap, List.map_filterMap]
  congr 1 <;> apply List.filterMap_congr <;> intro line _
  · rw [Function.comp_apply, parseRowLine_dropReturn,
      parseRowLine_rewriteLine_of read]
  · rw [Function.comp_apply, parseRowLine_rewriteLine_of read]

variable (tidy : ∀ row ∈ rows, Tidy row)

include tidy

theorem oneLine_formatRows : ∀ row ∈ rows, '\n' ∉ formatRow row :=
  fun row member => oneLine_formatRow (tidy row member)

theorem parseRowLine_formatRows :
    ∀ row ∈ rows, parseRowLine (formatRow row) = some (id row) :=
  fun row member => parseRowLine_formatRow (tidy row member)

theorem parseRowLine_rewriteLine (line : Text) :
    parseRowLine (rewriteLine rows line) =
      (parseRowLine line).map (update rows) := by
  rw [parseRowLine_rewriteLine_of (parseRowLine_formatRows tidy)]
  simp only [Option.map_id, id_eq]
  rfl

/-- Every line of the rewritten text comes from a line of the old one. -/
theorem mem_lines_rewriteRows {text line : Text}
    (member : line ∈ lines (rewriteRows text rows)) :
    ∃ old ∈ lines text, line = rewriteLine rows old ∨
      line = dropReturn (rewriteLine rows old) := by
  obtain ⟨rest, whole, front, back⟩ :=
    lines_rewriteRows (oneLine_formatRows tidy) text
  rw [back, front, List.mem_append] at member
  rw [whole]
  rcases member with fed | last
  · obtain ⟨old, there, rfl⟩ := List.mem_map.mp fed
    exact ⟨old, List.mem_append_left _ there, Or.inr rfl⟩
  · obtain ⟨old, there, rfl⟩ := List.mem_map.mp last
    exact ⟨old, List.mem_append_right _ there, Or.inl rfl⟩

theorem parseRows_rewriteRows (text : Text) :
    parseRows (rewriteRows text rows) =
      (parseRows text).map (update rows) := by
  rw [parseRows_rewriteRows_of (oneLine_formatRows tidy)
    (parseRowLine_formatRows tidy)]
  simp only [Option.map_id, id_eq]
  rfl

end

/-! ## What is around the rows -/

theorem dropReturn_eq_self_iff (line : Text) :
    dropReturn line = line ↔ line.getLast? ≠ some '\r' := by
  rw [dropReturn]
  constructor
  · intro same last
    rw [if_pos last] at same
    have shorter := congrArg List.length same
    have some : line ≠ [] := fun empty => by simp [empty] at last
    have long := List.length_pos_of_ne_nil some
    rw [List.length_dropLast] at shorter
    omega
  · exact fun last => if_neg last

theorem entry_of_some {line : Text} {row : Row}
    (read : parseRowLine line = some row) : entry line = .row row.taskId := by
  simp only [entry, read]

theorem entry_of_none {line : Text} (other : parseRowLine line = none) :
    entry line = .other line := by
  simp only [entry, other]

section

variable {rows : List Row} (tidy : ∀ row ∈ rows, Tidy row)

include tidy

theorem entry_rewriteLine (line : Text) :
    entry (rewriteLine rows line) = entry line := by
  cases read : parseRowLine line with
  | none => rw [rewriteLine_of_none read]
  | some row =>
      have again := parseRowLine_rewriteLine tidy line
      rw [read, Option.map_some] at again
      rw [entry_of_some again, entry_of_some read, update_taskId]

/-- A line that a line feed ends shows as before, if it is a row or no
carriage return is left at its end. -/
theorem entry_dropReturn_iff (line : Text) :
    entry (dropReturn (rewriteLine rows line)) = entry line ↔
      (parseRowLine line = none → line.getLast? ≠ some '\r') := by
  cases read : parseRowLine line with
  | none =>
      have other : parseRowLine (dropReturn line) = none := by
        rw [parseRowLine_dropReturn, read]
      rw [rewriteLine_of_none read, entry_of_none other, entry_of_none read,
        Entry.other.injEq, dropReturn_eq_self_iff]
      exact ⟨fun last _ => last, fun last => last rfl⟩
  | some row =>
      have again := parseRowLine_rewriteLine tidy line
      rw [read, Option.map_some, ← parseRowLine_dropReturn] at again
      rw [entry_of_some again, entry_of_some read, update_taskId]
      exact iff_of_true rfl nofun

/-- All that is around the rows survives exactly if the text is clean. -/
theorem outline_rewriteRows_iff (text : Text) :
    outline (rewriteRows text rows) = outline text ↔ Clean text := by
  obtain ⟨rest, whole, front, back⟩ :=
    lines_rewriteRows (oneLine_formatRows tidy) text
  have same : (rest.map (rewriteLine rows)).map entry = rest.map entry := by
    rw [List.map_map]
    exact List.map_congr_left fun line _ => entry_rewriteLine tidy line
  rw [outline, outline, back, front, whole, List.map_append,
    List.map_append, same, List.append_left_inj, List.map_map,
    List.map_inj_left]
  exact forall₂_congr fun line _ => entry_dropReturn_iff tidy line

theorem clean_rewriteRows {text : Text} (clean : Clean text) :
    Clean (rewriteRows text rows) := by
  obtain ⟨rest, whole, front, back⟩ :=
    lines_rewriteRows (oneLine_formatRows tidy) text
  rw [Clean, front]
  intro line member other
  obtain ⟨old, there, rfl⟩ := List.mem_map.mp member
  rw [parseRowLine_dropReturn, parseRowLine_rewriteLine tidy,
    Option.map_eq_none_iff] at other
  have last := clean old there other
  rwa [rewriteLine_of_none other, (dropReturn_eq_self_iff old).mpr last]

end

/-! ## The rows as a table -/

theorem mem_of_find {rows : List Row} {task : Text} {row : Row}
    (found : rows.find? (·.taskId = task) = some row) :
    row ∈ rows ∧ row.taskId = task :=
  ⟨List.mem_of_find?_eq_some found,
    by simpa using List.find?_some found⟩

/-- A row of a table is found under its task. -/
theorem find_of_mem {rows : List Row}
    (distinct : (rows.map Row.taskId).Nodup) {row : Row}
    (member : row ∈ rows) :
    rows.find? (·.taskId = row.taskId) = some row := by
  induction rows with
  | nil => exact absurd member List.not_mem_nil
  | cons first later ih =>
      rw [List.map_cons, List.nodup_cons] at distinct
      rcases List.mem_cons.mp member with rfl | behind
      · exact List.find?_cons_of_pos (by simp)
      · have apart : first.taskId ≠ row.taskId := fun same =>
          distinct.1 (same ▸ List.mem_map_of_mem behind)
        rw [List.find?_cons_of_neg (by simpa using apart)]
        exact ih distinct.2 behind

theorem lookup_of_mem {rows : List Row}
    (distinct : (rows.map Row.taskId).Nodup) {row : Row}
    (member : row ∈ rows) : lookup rows row.taskId = some row := by
  apply find_of_mem
  · rwa [List.map_reverse, List.nodup_reverse]
  · exact List.mem_reverse.mpr member

theorem of_mem_setRow {rows : List Row} {task : Text} {new other : Row}
    (member : other ∈ setRow rows task new) :
    other ∈ rows ∨ other = new :=
  List.mem_or_eq_of_mem_set member

/-- The row of a task, between those in front of it and those behind. -/
theorem exists_setRow {rows : List Row} {task : Text} {row : Row}
    (found : rows.find? (·.taskId = task) = some row) (new : Row) :
    ∃ before after, rows = before ++ row :: after ∧
      (∀ other ∈ before, other.taskId ≠ task) ∧
      setRow rows task new = before ++ new :: after := by
  obtain ⟨here, before, after, rfl, apart⟩ :=
    List.find?_eq_some_iff_append.mp found
  simp only [Bool.not_eq_true', decide_eq_false_iff_not] at apart
  refine ⟨before, after, rfl, apart, ?_⟩
  have place : (before ++ row :: after).findIdx (·.taskId = task) =
      before.length := by
    rw [List.findIdx_append, if_neg, List.findIdx_cons, here, cond_true,
      Nat.zero_add]
    rw [Nat.not_lt, List.findIdx_eq_length_of_false]
    simpa using apart
  rw [setRow, place, List.set_append_right _ _ (Nat.le_refl _),
    Nat.sub_self, List.set_cons_zero]

section

variable {rows : List Row} {task : Text} {row new : Row}
  (found : rows.find? (·.taskId = task) = some row)
  (same : new.taskId = task)

include found same

theorem map_taskId_setRow :
    (setRow rows task new).map Row.taskId = rows.map Row.taskId := by
  obtain ⟨before, after, whole, -, set⟩ := exists_setRow found new
  rw [set, whole, List.map_append, List.map_append, List.map_cons,
    List.map_cons, same, (mem_of_find found).2]

theorem find_setRow :
    (setRow rows task new).find? (·.taskId = task) = some new := by
  obtain ⟨before, after, -, apart, set⟩ := exists_setRow found new
  rw [set, List.find?_append, List.find?_eq_none.mpr (by simpa using apart),
    Option.none_or, List.find?_cons_of_pos (by simpa using same)]

theorem find_setRow_of_ne {other : Text} (apart : other ≠ task) :
    (setRow rows task new).find? (·.taskId = other) =
      rows.find? (·.taskId = other) := by
  obtain ⟨before, after, whole, -, set⟩ := exists_setRow found new
  have held : row.taskId ≠ other := fun here =>
    apart (here ▸ (mem_of_find found).2)
  rw [set, whole, List.find?_append, List.find?_append,
    List.find?_cons_of_neg (by simpa [same] using Ne.symm apart),
    List.find?_cons_of_neg (by simpa using held)]

/-- Read through the map of the new rows, the old ones become the new. -/
theorem map_update_setRow (distinct : (rows.map Row.taskId).Nodup) :
    rows.map (update (setRow rows task new)) = setRow rows task new := by
  have still : ((setRow rows task new).map Row.taskId).Nodup := by
    rwa [map_taskId_setRow found same]
  have kept : ∀ other ∈ setRow rows task new,
      update (setRow rows task new) other = other := by
    intro other member
    rw [update, lookup_of_mem still member, Option.getD_some]
  obtain ⟨before, after, whole, -, set⟩ := exists_setRow found new
  have turned : update (setRow rows task new) row = new := by
    have member : new ∈ setRow rows task new := by
      rw [set]
      exact List.mem_append_right _ List.mem_cons_self
    rw [update, (mem_of_find found).2.trans same.symm,
      lookup_of_mem still member, Option.getD_some]
  have stays : ∀ part : List Row, part ⊆ setRow rows task new →
      part.map (update (setRow rows task new)) = part := by
    intro part within
    calc part.map (update (setRow rows task new))
        = part.map id :=
          List.map_congr_left fun other member => kept other (within member)
      _ = part := List.map_id part
  have front : before ⊆ setRow rows task new := by
    rw [set]
    exact List.subset_append_left _ _
  have back : after ⊆ setRow rows task new := by
    rw [set]
    exact List.subset_append_of_subset_right _ (List.subset_cons_self _ _)
  calc rows.map (update (setRow rows task new))
      = (before ++ row :: after).map (update (setRow rows task new)) :=
        congrArg (List.map _) whole
    _ = before ++ new :: after := by
        rw [List.map_append, List.map_cons, turned, stays before front,
          stays after back]
    _ = setRow rows task new := set.symm

end

/-! ## A write of one row -/

section

variable {text task : Text} {row new : Row} (shaped : Shaped text)
  (found : (parseRows text).find? (·.taskId = task) = some row)
  (same : new.taskId = task) (tidy : Tidy new)

include tidy

theorem tidy_setRow :
    ∀ other ∈ setRow (parseRows text) task new, Tidy other := by
  intro other member
  rcases of_mem_setRow member with old | rfl
  · exact tidy_of_mem old
  · exact tidy

include shaped found same

theorem parseRows_write :
    parseRows (rewriteRows text (setRow (parseRows text) task new)) =
      setRow (parseRows text) task new := by
  rw [parseRows_rewriteRows (tidy_setRow tidy),
    map_update_setRow found same shaped.distinct]

theorem status_write :
    status (rewriteRows text (setRow (parseRows text) task new)) task =
      some new.intoStatus := by
  rw [status, parseRows_write shaped found same tidy,
    find_setRow found same, Option.map_some]

theorem status_write_of_ne {other : Text} (apart : other ≠ task) :
    status (rewriteRows text (setRow (parseRows text) task new)) other =
      status text other := by
  rw [status, parseRows_write shaped found same tidy,
    find_setRow_of_ne found same apart, status]

theorem shaped_write (settled : Settled new) :
    Shaped (rewriteRows text (setRow (parseRows text) task new)) := by
  have all : ∀ other ∈ setRow (parseRows text) task new, Tidy other :=
    tidy_setRow tidy
  have rows := parseRows_write shaped found same tidy
  have ids := map_taskId_setRow found same
  constructor
  · intro line member read
    obtain ⟨old, there, how⟩ := mem_lines_rewriteRows all member
    have same : parseRowLine line =
        (parseRowLine old).map
          (update (setRow (parseRows text) task new)) := by
      rcases how with rfl | rfl
      · exact parseRowLine_rewriteLine all old
      · rw [parseRowLine_dropReturn, parseRowLine_rewriteLine all]
    rw [same, Option.isSome_map] at read
    obtain ⟨held, old_eq⟩ := Option.isSome_iff_exists.mp read
    -- the map has every task of the text
    have listed : held.taskId ∈
        (setRow (parseRows text) task new).map Row.taskId := by
      rw [ids, parseRows_eq]
      exact List.mem_map_of_mem
        (List.mem_filterMap.mpr ⟨old, there, old_eq⟩)
    obtain ⟨updated, member', id_eq⟩ := List.mem_map.mp listed
    have distinct := ids ▸ shaped.distinct
    have key := lookup_of_mem distinct member'
    rw [id_eq] at key
    have written := rewriteLine_of_lookup old_eq key
    rw [written, dropReturn_formatRow, or_self] at how
    rw [how]
    exact fourCells_formatRow (all updated member')
  · rw [rows, ids]
    exact shaped.distinct
  · rw [rows]
    intro other member
    rcases of_mem_setRow member with old | rfl
    · exact shaped.settled other old
    · exact settled

end

/-! ## What is written into a row -/

/-- The names agents go by: nothing to trim, no bar and no line break. -/
structure Named (agent : Text) : Prop where
  some : agent ≠ []
  cell : Cell agent

/-- Neither a blank nor a bar. -/
def Solid (text : Text) : Prop :=
  ∀ char ∈ text, isWhitespace char = false ∧ char ≠ '|'

theorem Solid.append {one other : Text} (front : Solid one)
    (back : Solid other) : Solid (one ++ other) :=
  List.forall_mem_append.mpr ⟨front, back⟩

theorem Solid.cons {char : Char} {text : Text}
    (here : isWhitespace char = false ∧ char ≠ '|') (back : Solid text) :
    Solid (char :: text) :=
  List.forall_mem_cons.mpr ⟨here, back⟩

theorem Solid.cell {text : Text} (solid : Solid text) : Cell text where
  trimmed := trim_of_visible fun char member => (solid char member).1
  noBar := fun member => (solid _ member).2 rfl
  oneLine := fun member => absurd (solid _ member).1 (by decide)

theorem solid_digit {char : Char} (digit : char.isDigit = true) :
    isWhitespace char = false ∧ char ≠ '|' := by
  obtain ⟨low, high⟩ : 48 ≤ char.toNat ∧ char.toNat ≤ 57 := by
    simpa [Char.isDigit, UInt32.le_iff_toNat_le] using digit
  constructor
  · simp only [isWhitespace, Bool.or_eq_false_iff, Bool.and_eq_false_iff,
      decide_eq_false_iff_not]
    omega
  · rintro rfl
    exact absurd high (by decide)

theorem solid_pad (width value : Nat) : Solid (pad width value) := by
  intro char member
  have digit : char.isDigit = true := by
    rcases List.mem_append.mp member with zero | shown
    · rw [List.eq_of_mem_replicate zero]
      rfl
    · exact Nat.isDigit_of_mem_toDigits (by decide) (by decide) shown
  exact solid_digit digit

theorem solid_formatYear (year : Int) : Solid (formatYear year) := by
  rw [formatYear]
  split
  · exact Solid.cons (by decide) (solid_pad _ _)
  split
  · exact Solid.cons (by decide) (solid_pad _ _)
  · exact solid_pad _ _

theorem solid_format (now : Moment) : Solid now.format := by
  have part : ∀ mark, isWhitespace mark = false ∧ mark ≠ '|' →
      ∀ value, Solid (mark :: pad 2 value) :=
    fun mark here value => Solid.cons here (solid_pad 2 value)
  have front := (solid_formatYear now.year).append
    (part '-' (by decide) now.month)
  have date := front.append (part '-' (by decide) now.day)
  have hour := date.append (part 'T' (by decide) now.hour)
  have minute := hour.append (part ':' (by decide) now.minute)
  have second := minute.append (part ':' (by decide) now.second)
  exact second.append (Solid.cons (by decide) nofun)

theorem format_ne_nil (now : Moment) : now.format ≠ [] :=
  List.append_ne_nil_of_right_ne_nil _ (List.cons_ne_nil _ _)

/-! ## The calls -/

/-- The calls of a registry. -/
inductive Call where
  | claim (task agent : Text) (now : Moment)
  | release (task agent : Text)
  deriving DecidableEq

def Call.task : Call → Text
  | .claim task _ _ => task
  | .release task _ => task

def Call.agent : Call → Text
  | .claim _ agent _ => agent
  | .release _ agent => agent

/-- The text a call leaves behind. -/
def next (text : Text) : Call → Text
  | .claim task agent now => (claim text task agent now).2
  | .release task agent => (release text task agent).2

/-- What a table of locks grants. -/
def Granted (text : Text) : Call → Prop
  | .claim task _ _ => status text task = some .free
  | .release task agent =>
    status text task = some .free ∨
      ∃ since, status text task = some (.inProgress agent since)

/-- What `claim` does for its task. -/
structure ClaimHolds (text task agent : Text) (now : Moment) : Prop where
  granted :
    (∃ made, (claim text task agent now).1 = .ok made) ↔
      status text task = some .free
  held : ∀ made, (claim text task agent now).1 = .ok made →
    status (claim text task agent now).2 task =
      some (.inProgress agent made.startedAt)
  refused : ∀ error, (claim text task agent now).1 = .error error →
    (claim text task agent now).2 = text

/-- What `release` does for its task. -/
structure ReleaseHolds (text task agent : Text) : Prop where
  granted :
    (release text task agent).1 = .ok () ↔
      status text task = some .free ∨
        ∃ since, status text task = some (.inProgress agent since)
  freed : (release text task agent).1 = .ok () →
    status (release text task agent).2 task = some .free
  refused : ∀ error, (release text task agent).1 = .error error →
    (release text task agent).2 = text

def CallHolds (text : Text) : Call → Prop
  | .claim task agent now => ClaimHolds text task agent now
  | .release task agent => ReleaseHolds text task agent

/-- The text is of the shape, and `list_free` lists what is free. -/
structure Consistent (text : Text) : Prop where
  shaped : Shaped text
  free : ∀ task, task ∈ listFree text ↔ status text task = some .free
  once : (listFree text).Nodup

/-- The calls act as on a table of locks. -/
def Locks : Text → List Call → Prop
  | text, [] => Consistent text
  | text, call :: later =>
    Consistent text ∧ CallHolds text call ∧
      (∀ other, other ≠ call.task →
        status (next text call) other = status text other) ∧
      outline (next text call) = outline text ∧
      Locks (next text call) later

section

variable {text task agent : Text}

theorem status_eq_some {state : TaskStatus}
    (here : status text task = some state) :
    ∃ row, (parseRows text).find? (·.taskId = task) = some row ∧
      row.intoStatus = state :=
  Option.map_eq_some_iff.mp here

theorem intoStatus_free {row : Row} (free : row.status = "free".toList) :
    row.intoStatus = .free :=
  if_pos free

theorem intoStatus_busy {row : Row}
    (busy : row.status = "in progress".toList) :
    row.intoStatus = .inProgress row.agent row.started := by
  rw [Row.intoStatus, if_neg]
  rw [busy]
  decide

/-- A free task is claimed: its row is written with the agent and the
stamp. -/
theorem claim_of_free (agent : Text) (now : Moment)
    (free : status text task = some .free) :
    ∃ row, (parseRows text).find? (·.taskId = task) = some row ∧
      claim text task agent now =
        (.ok ⟨task, agent, now.format⟩,
          rewriteRows text
            (setRow (parseRows text) task
              ⟨row.taskId, "in progress".toList, agent, now.format⟩)) := by
  obtain ⟨row, found, state⟩ := status_eq_some free
  refine ⟨row, found, ?_⟩
  have idle : row.status ≠ "in progress".toList := by
    intro busy
    rw [intoStatus_busy busy] at state
    exact absurd state nofun
  simp only [claim, found, if_neg idle]

/-- A task that is free or held by the agent is released: its row is written
empty. -/
theorem release_of_granted (granted : Granted text (.release task agent)) :
    ∃ row, (parseRows text).find? (·.taskId = task) = some row ∧
      release text task agent =
        (.ok (),
          rewriteRows text
            (setRow (parseRows text) task
              ⟨row.taskId, "free".toList, [], []⟩)) := by
  have able : ∃ row,
      (parseRows text).find? (·.taskId = task) = some row ∧
        ¬ (row.status = "in progress".toList ∧ row.agent ≠ agent) := by
    rcases granted with free | ⟨since, mine⟩
    · obtain ⟨row, found, state⟩ := status_eq_some free
      refine ⟨row, found, fun ⟨busy, _⟩ => ?_⟩
      rw [intoStatus_busy busy] at state
      exact absurd state nofun
    · obtain ⟨row, found, state⟩ := status_eq_some mine
      refine ⟨row, found, fun ⟨busy, foreign⟩ => ?_⟩
      rw [intoStatus_busy busy] at state
      exact foreign (TaskStatus.inProgress.inj state).1
  obtain ⟨row, found, ours⟩ := able
  exact ⟨row, found, by simp only [release, found, if_neg ours]⟩

variable (shaped : Shaped text)

include shaped

theorem mem_listFree (task : Text) :
    task ∈ listFree text ↔ status text task = some .free := by
  rw [listFree, List.mem_insertionSort, List.mem_map]
  constructor
  · rintro ⟨row, member, rfl⟩
    obtain ⟨here, free⟩ := List.mem_filter.mp member
    rw [status, find_of_mem shaped.distinct here, Option.map_some,
      intoStatus_free (of_decide_eq_true free)]
  · intro free
    obtain ⟨row, found, state⟩ := status_eq_some free
    obtain ⟨member, task_eq⟩ := mem_of_find found
    refine ⟨row, List.mem_filter.mpr ⟨member, ?_⟩, task_eq⟩
    apply decide_eq_true
    by_contra busy
    rw [Row.intoStatus, if_neg busy] at state
    exact absurd state nofun

theorem nodup_listFree : (listFree text).Nodup := by
  rw [listFree, (List.perm_insertionSort _ _).nodup_iff]
  exact shaped.distinct.sublist (List.filter_sublist.map _)

theorem consistent : Consistent text :=
  ⟨shaped, mem_listFree shaped, nodup_listFree shaped⟩

/-- A task that is not free is not claimed. -/
theorem claim_of_not_free (agent : Text) (now : Moment)
    (taken : status text task ≠ some .free) :
    ∃ error, claim text task agent now = (.error error, text) := by
  cases found : (parseRows text).find? (·.taskId = task) with
  | none => exact ⟨.notFound, by simp only [claim, found]⟩
  | some row =>
      have busy : row.status = "in progress".toList := by
        cases shaped.settled row (mem_of_find found).1 with
        | free status agent started =>
            rw [Registry.status, found, Option.map_some,
              intoStatus_free status] at taken
            exact absurd rfl taken
        | busy status agent started => exact status
      exact ⟨.alreadyClaimed row.agent row.started,
        by simp only [claim, found, if_pos busy]⟩

/-- A task that is missing or held by another agent is not released. -/
theorem release_of_not_granted
    (foreign : ¬ Granted text (.release task agent)) :
    ∃ error, release text task agent = (.error error, text) := by
  obtain ⟨taken, away⟩ := not_or.mp foreign
  cases found : (parseRows text).find? (·.taskId = task) with
  | none => exact ⟨.notFound, by simp only [release, found]⟩
  | some row =>
      cases shaped.settled row (mem_of_find found).1 with
      | free status agent started =>
          rw [Registry.status, found, Option.map_some,
            intoStatus_free status] at taken
          exact absurd rfl taken
      | busy status held started =>
          have apart : row.agent ≠ agent := by
            rintro rfl
            apply away
            refine ⟨row.started, ?_⟩
            rw [Registry.status, found, Option.map_some,
              intoStatus_busy status]
          exact ⟨.notOwner row.agent,
            by simp only [release, found, if_pos (And.intro status apart)]⟩

end

/-! ## One call -/

/-- The row of the task was written anew. -/
structure Written (text task : Text) (new : Row) (after : Text) : Prop where
  found : ∃ row, (parseRows text).find? (·.taskId = task) = some row
  same : new.taskId = task
  tidy : Tidy new
  settled : Settled new
  eq : after = rewriteRows text (setRow (parseRows text) task new)

section

variable {text task after : Text} {new : Row}

theorem Written.status_eq (written : Written text task new after)
    (shaped : Shaped text) : status after task = some new.intoStatus := by
  obtain ⟨row, found⟩ := written.found
  rw [written.eq]
  exact status_write shaped found written.same written.tidy

theorem Written.others (written : Written text task new after)
    (shaped : Shaped text) :
    ∀ other, other ≠ task → status after other = status text other := by
  intro other apart
  obtain ⟨row, found⟩ := written.found
  rw [written.eq]
  exact status_write_of_ne shaped found written.same written.tidy apart

theorem Written.shaped (written : Written text task new after)
    (shaped : Shaped text) : Shaped after := by
  obtain ⟨row, found⟩ := written.found
  rw [written.eq]
  exact shaped_write shaped found written.same written.tidy
    written.settled

theorem Written.outline_iff (written : Written text task new after) :
    outline after = outline text ↔ Clean text := by
  rw [written.eq]
  exact outline_rewriteRows_iff (tidy_setRow written.tidy) text

theorem Written.clean (written : Written text task new after)
    (clean : Clean text) : Clean after := by
  rw [written.eq]
  exact clean_rewriteRows (tidy_setRow written.tidy) clean

end

theorem written_claim {text task agent : Text} (now : Moment)
    (named : Named agent) (free : status text task = some .free) :
    ∃ new, Written text task new (claim text task agent now).2 ∧
      new.intoStatus = .inProgress agent now.format ∧
      (claim text task agent now).1 = .ok ⟨task, agent, now.format⟩ := by
  obtain ⟨row, found, claimed⟩ := claim_of_free agent now free
  obtain ⟨member, same⟩ := mem_of_find found
  have old := tidy_of_mem member
  have busy : Cell "in progress".toList := by
    constructor <;> decide
  refine ⟨⟨row.taskId, "in progress".toList, agent, now.format⟩,
    ⟨⟨row, found⟩, ?_, ?_, ?_, ?_⟩, intoStatus_busy rfl, ?_⟩
  · exact same
  · exact ⟨old.task, old.taskCell, busy, named.cell,
      (solid_format now).cell⟩
  · exact Settled.busy rfl named.some (format_ne_nil now)
  · rw [claimed]
  · rw [claimed]

theorem written_release {text task agent : Text}
    (granted : Granted text (.release task agent)) :
    ∃ new, Written text task new (release text task agent).2 ∧
      new.intoStatus = .free ∧
      (release text task agent).1 = .ok () := by
  obtain ⟨row, found, released⟩ := release_of_granted granted
  obtain ⟨member, same⟩ := mem_of_find found
  have old := tidy_of_mem member
  have free : Cell "free".toList := by
    constructor <;> decide
  refine ⟨⟨row.taskId, "free".toList, [], []⟩,
    ⟨⟨row, found⟩, ?_, ?_, ?_, ?_⟩, intoStatus_free rfl, ?_⟩
  · exact same
  · exact ⟨old.task, old.taskCell, free, cell_nil, cell_nil⟩
  · exact Settled.free rfl rfl rfl
  · rw [released]
  · rw [released]

/-- A granted call writes the row of its task. -/
theorem written_next {text : Text} {call : Call} (named : Named call.agent)
    (granted : Granted text call) :
    ∃ new, Written text call.task new (next text call) := by
  cases call with
  | claim task agent now =>
      obtain ⟨new, written, -, -⟩ := written_claim now named granted
      exact ⟨new, written⟩
  | release task agent =>
      obtain ⟨new, written, -, -⟩ := written_release granted
      exact ⟨new, written⟩

/-- Any other call writes nothing. -/
theorem next_of_not_granted {text : Text} (shaped : Shaped text)
    {call : Call} (refused : ¬ Granted text call) :
    next text call = text := by
  cases call with
  | claim task agent now =>
      obtain ⟨error, result⟩ := claim_of_not_free shaped agent now refused
      rw [next, result]
  | release task agent =>
      obtain ⟨error, result⟩ := release_of_not_granted shaped refused
      rw [next, result]

theorem claimHolds {text task agent : Text} {now : Moment}
    (shaped : Shaped text) (named : Named agent) :
    ClaimHolds text task agent now := by
  by_cases free : status text task = some .free
  · obtain ⟨new, written, state, result⟩ :=
      written_claim now named free
    constructor
    · exact iff_of_true ⟨_, result⟩ free
    · intro made accepted
      rw [result] at accepted
      obtain rfl := Except.ok.inj accepted
      rw [written.status_eq shaped, state]
    · intro error failed
      exact absurd (result ▸ failed) nofun
  · obtain ⟨error, result⟩ := claim_of_not_free shaped agent now free
    constructor
    · refine iff_of_false ?_ free
      rintro ⟨made, accepted⟩
      rw [result] at accepted
      exact absurd accepted nofun
    · intro made accepted
      rw [result] at accepted
      exact absurd accepted nofun
    · intro error _
      rw [result]

theorem releaseHolds {text task agent : Text} (shaped : Shaped text) :
    ReleaseHolds text task agent := by
  by_cases granted : Granted text (.release task agent)
  · obtain ⟨new, written, state, result⟩ := written_release granted
    constructor
    · exact iff_of_true result granted
    · intro _
      rw [written.status_eq shaped, state]
    · intro error failed
      rw [result] at failed
      exact absurd failed nofun
  · obtain ⟨error, result⟩ := release_of_not_granted shaped granted
    constructor
    · refine iff_of_false ?_ granted
      rw [result]
      exact nofun
    · intro accepted
      rw [result] at accepted
      exact absurd accepted nofun
    · intro error _
      rw [result]

theorem callHolds {text : Text} {call : Call} (shaped : Shaped text)
    (named : Named call.agent) : CallHolds text call := by
  cases call with
  | claim task agent now => exact claimHolds shaped named
  | release task agent => exact releaseHolds shaped

/-! ## Runs -/

/-- For a text of the shape and any calls on it, the registry acts as a table
of locks exactly if the text is clean or no call is granted. -/
theorem locks_iff {text : Text} (shaped : Shaped text) {calls : List Call}
    (named : ∀ call ∈ calls, Named call.agent) :
    Locks text calls ↔
      Clean text ∨ ∀ call ∈ calls, ¬ Granted text call := by
  induction calls generalizing text with
  | nil => exact iff_of_true (consistent shaped) (Or.inr nofun)
  | cons call later ih =>
      obtain ⟨here, there⟩ := List.forall_mem_cons.mp named
      rw [Locks]
      by_cases granted : Granted text call
      · obtain ⟨new, written⟩ := written_next here granted
        constructor
        · rintro ⟨-, -, -, outline, -⟩
          exact Or.inl (written.outline_iff.mp outline)
        · intro condition
          have clean : Clean text := condition.resolve_right fun none =>
            none call List.mem_cons_self granted
          exact ⟨consistent shaped, callHolds shaped here,
            written.others shaped, written.outline_iff.mpr clean,
            (ih (written.shaped shaped) there).mpr
              (Or.inl (written.clean clean))⟩
      · have still := next_of_not_granted shaped granted
        rw [still, ih shaped there, List.forall_mem_cons]
        constructor
        · rintro ⟨-, -, -, -, clean | none⟩
          · exact Or.inl clean
          · exact Or.inr ⟨granted, none⟩
        · intro condition
          exact ⟨consistent shaped, callHolds shaped here,
            fun _ _ => rfl, rfl, condition.imp_right And.right⟩

/-- Two tasks under a heading. -/
def twoTasks : Text :=
  "# tasks\n| P1.1 | free | | |\n| K2 | in progress | amy | noon |\n".toList

theorem shaped_twoTasks : Shaped twoTasks := by
  constructor
  · decide +kernel
  · decide +kernel
  · have rows : parseRows twoTasks =
        [⟨"P1.1".toList, "free".toList, [], []⟩,
          ⟨"K2".toList, "in progress".toList, "amy".toList,
            "noon".toList⟩] := by
      decide +kernel
    rw [rows]
    simp only [List.forall_mem_cons]
    exact ⟨.free rfl rfl rfl, .busy rfl (by decide) (by decide), nofun⟩

theorem named_bob : Named "bob".toList := by
  constructor
  · decide
  · constructor <;> decide

theorem locks_twoTasks :
    Locks twoTasks
      [.claim "P1.1".toList "bob".toList ⟨2026, 9, 1, 10, 0, 0⟩,
        .release "K2".toList "bob".toList,
        .release "P1.1".toList "bob".toList] := by
  refine (locks_iff shaped_twoTasks ?_).mpr (Or.inl ?_)
  · simp only [List.forall_mem_cons]
    exact ⟨named_bob, named_bob, named_bob, nofun⟩
  · rw [Clean]
    decide +kernel

/-- A note whose line ends in two carriage returns, above a free task. -/
def doubledReturn : Text :=
  "note\r\r\n| P1.1 | free | | |\n".toList

theorem shaped_doubledReturn : Shaped doubledReturn := by
  constructor
  · decide +kernel
  · decide +kernel
  · have rows : parseRows doubledReturn =
        [⟨"P1.1".toList, "free".toList, [], []⟩] := by
      decide +kernel
    rw [rows]
    simp only [List.forall_mem_cons]
    exact ⟨.free rfl rfl rfl, nofun⟩

/-- The note loses a carriage return when the task is claimed. -/
theorem not_locks_doubledReturn :
    Shaped doubledReturn ∧ Named "bob".toList ∧
      ¬ Locks doubledReturn
        [.claim "P1.1".toList "bob".toList ⟨2026, 9, 1, 10, 0, 0⟩] := by
  refine ⟨shaped_doubledReturn, named_bob, ?_⟩
  rintro ⟨-, -, -, outline, -⟩
  exact absurd outline (by decide +kernel)

end Runa.Memory.LockTable
