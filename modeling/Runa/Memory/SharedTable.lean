import Mathlib.Data.List.Find
import Runa.Memory.Agents

/-!
# One table, many agents

Two registries that read a task free both claim it, and a registry that
writes its first read back undoes what others wrote in between.  Neither
happens in a run exactly if at every write the file still shows the rows of
the other tasks as they were read, and a task that is claimed is not in
progress by then.
-/

namespace Runa.Memory.SharedTable

open Runa.Stream.Utf8
open Runa.Stream.Lines
open Runa.Memory.Registry
open Runa.Memory.LockTable
open Runa.Memory.Agents
open Runa.Concurrent.Interleaving

variable {ι : Type}

/-! ## What a run must keep -/

/-- The row under which a task is found. -/
def seen (text task : Text) : Option Row :=
  (parseRows text).find? (·.taskId = task)

def Busy (text task : Text) : Prop :=
  ∃ row, seen text task = some row ∧ row.status = "in progress".toList

def isClaim : Call → Bool
  | .claim _ _ _ => true
  | .release _ _ => false

/-- The call returns `Ok` with this action. -/
def accepted (action : Action ι Text Pending) : Bool :=
  match (act action.held action.shared).2 with
  | .more _ => false
  | .done (.refused _) => false
  | .done _ => true

/-- The calls that have returned `Ok`. -/
def granted (past : List (Action ι Text Pending)) : List Call :=
  (past.filter accepted).map (·.held.call)

/-- The last of the calls on a task. -/
def lastOn (calls : List Call) (task : Text) : Option Call :=
  calls.reverse.find? (·.task = task)

/-- The task was claimed and not released since. -/
def Held (calls : List Call) (task : Text) : Prop :=
  ∃ call, lastOn calls task = some call ∧ isClaim call

/-- No claim of a held task returns `Ok`, and the rows of other tasks stay as
they are. -/
structure Sound (past : List (Action ι Text Pending))
    (action : Action ι Text Pending) : Prop where
  single : accepted action → isClaim action.held.call →
    ¬ Held (granted past) action.held.call.task
  others : ∀ other, other ≠ action.held.call.task →
    seen (act action.held action.shared).1 other = seen action.shared other

/-- Before a write, the file shows the other tasks as the call read them, and
a task that it claims is not in progress. -/
structure Fresh (action : Action ι Text Pending) : Prop where
  others : ∀ rows read, action.held.phase = .write rows read →
    ∀ other, other ≠ action.held.call.task →
      rows.find? (·.taskId = other) = seen action.shared other
  idle : ∀ rows read, action.held.phase = .write rows read →
    isClaim action.held.call → ¬ Busy action.shared action.held.call.task

/-! ## Rows that are read back -/

/-- A row whose line is a row of the same task and status. -/
structure Legible (row : Row) : Prop where
  oneLine : '\n' ∉ formatRow row
  read : ∃ read, parseRowLine (formatRow row) = some read ∧
    read.taskId = row.taskId ∧ read.status = row.status

/-- The row that is read back. -/
def shown (row : Row) : Row :=
  (parseRowLine (formatRow row)).getD row

theorem shown_of_tidy {row : Row} (tidy : Tidy row) : shown row = row := by
  rw [shown, parseRowLine_formatRow tidy, Option.getD_some]

theorem legible_of_tidy {row : Row} (tidy : Tidy row) : Legible row :=
  ⟨oneLine_formatRow tidy, row, parseRowLine_formatRow tidy, rfl, rfl⟩

section

variable {row : Row} (legible : Legible row)

include legible

theorem Legible.parse_eq :
    parseRowLine (formatRow row) = some (shown row) := by
  obtain ⟨read, same, -, -⟩ := legible.read
  rw [shown, same, Option.getD_some]

theorem Legible.shown_taskId : (shown row).taskId = row.taskId := by
  obtain ⟨read, same, task, -⟩ := legible.read
  rw [shown, same, Option.getD_some, task]

theorem Legible.shown_status : (shown row).status = row.status := by
  obtain ⟨read, same, -, status⟩ := legible.read
  rw [shown, same, Option.getD_some, status]

end

/-- The cells of the task and the status come first, and at least three
behind them. -/
theorem exists_cells {row : Row} (taskCell : Cell row.taskId)
    (statusCell : Cell row.status) (startedCell : Cell row.started) :
    ∃ agent started after rest, cells (formatRow row) =
      [] :: row.taskId :: row.status :: agent :: started :: after :: rest := by
  have whole : formatRow row =
      [] ++ '|' :: (padded row.taskId ++ '|' :: (padded row.status ++
        '|' :: (padded row.agent ++ '|' :: (padded row.started ++
          '|' :: [])))) := by
    simp [formatRow, padded, bar]
  have split : (formatRow row).splitOn '|' =
      [] :: padded row.taskId :: padded row.status ::
        ((padded row.agent).splitOn '|' ++ [padded row.started, []]) := by
    rw [whole, List.splitOn_append_cons_self_of_not_mem List.not_mem_nil,
      List.splitOn_append_cons_self_of_not_mem taskCell.noBar_padded,
      List.splitOn_append_cons_self_of_not_mem statusCell.noBar_padded,
      List.splitOn_append_cons_self,
      List.splitOn_append_cons_self_of_not_mem startedCell.noBar_padded,
      List.splitOn_nil]
  rw [cells, trim_formatRow, split]
  simp only [List.map_cons, List.map_append, List.map_nil,
    taskCell.trim_padded, statusCell.trim_padded, cell_nil.trimmed]
  cases parts : (padded row.agent).splitOn '|' with
  | nil => exact absurd parts (List.splitOn_ne_nil _ _)
  | cons piece others =>
  cases others with
  | nil => exact ⟨_, _, _, _, rfl⟩
  | cons other more =>
      obtain ⟨after, rest, behind⟩ := List.exists_cons_of_ne_nil
        (List.append_ne_nil_of_right_ne_nil (more.map trim)
          (List.cons_ne_nil (trim (padded row.started)) [[]]))
      exact ⟨trim piece, trim other, after, rest,
        by simp only [List.map_cons, List.cons_append, behind]⟩

/-- What stands in the cell of the agent does not matter, if it is one
line. -/
theorem legible_of_oneLine {row : Row} (task : isTaskId row.taskId = true)
    (taskCell : Cell row.taskId) (statusCell : Cell row.status)
    (agentLine : '\n' ∉ row.agent) (startedCell : Cell row.started) :
    Legible row := by
  constructor
  · simp [formatRow, bar, taskCell.oneLine, statusCell.oneLine, agentLine,
      startedCell.oneLine]
  · obtain ⟨agent, started, after, rest, parts⟩ :=
      exists_cells taskCell statusCell startedCell
    have front : (trim (formatRow row)).head? = some '|' := by
      rw [trim_formatRow]
      rfl
    refine ⟨⟨row.taskId, row.status, agent, started⟩, ?_, rfl, rfl⟩
    rw [parseRowLine, if_neg (not_not_intro front), parts]
    simp only [if_neg (notTitle_of_isTaskId task), task, if_true]

section

variable {rows : List Row} (legible : ∀ row ∈ rows, Legible row)
  (distinct : (rows.map Row.taskId).Nodup)

include legible

theorem find_shown (task : Text) :
    (rows.map shown).find? (·.taskId = task) =
      (rows.find? (·.taskId = task)).map shown := by
  rw [List.find?_map]
  apply congrArg (Option.map shown)
  apply List.find?_congr
  intro row member
  rw [Function.comp_apply, (legible row member).shown_taskId]

theorem map_taskId_shown :
    (rows.map shown).map Row.taskId = rows.map Row.taskId := by
  rw [List.map_map]
  exact List.map_congr_left fun row member =>
    (legible row member).shown_taskId

include distinct

/-- A text with the same tasks shows the rows that are written into it. -/
theorem parseRows_write {text : Text}
    (ids : (parseRows text).map Row.taskId = rows.map Row.taskId) :
    parseRows (rewriteRows text rows) = rows.map shown := by
  have read := parseRows_rewriteRows_of
    (fun row member => (legible row member).oneLine)
    (fun row member => (legible row member).parse_eq) text
  -- every task of the text is one of the list
  have listed : ∀ row ∈ parseRows text,
      some (((lookup rows row.taskId).map shown).getD row) =
        (lookup rows row.taskId).map shown := by
    intro row member
    have here : row.taskId ∈ rows.map Row.taskId :=
      ids ▸ List.mem_map_of_mem member
    obtain ⟨written, there, same⟩ := List.mem_map.mp here
    rw [← same, lookup_of_mem distinct there, Option.map_some,
      Option.getD_some]
  have again : ∀ row ∈ rows,
      (lookup rows row.taskId).map shown = some (shown row) := by
    intro row member
    rw [lookup_of_mem distinct member, Option.map_some]
  apply List.map_injective_iff.mpr (Option.some_injective _)
  rw [read, List.map_map]
  calc (parseRows text).map _
      = (parseRows text).map fun row =>
          (lookup rows row.taskId).map shown := List.map_congr_left listed
    _ = ((parseRows text).map Row.taskId).map fun task =>
          (lookup rows task).map shown := by rw [List.map_map]; rfl
    _ = rows.map fun row => (lookup rows row.taskId).map shown := by
        rw [ids, List.map_map]
        rfl
    _ = rows.map fun row => some (shown row) := List.map_congr_left again
    _ = (rows.map shown).map some := by rw [List.map_map]; rfl

theorem seen_write {text : Text}
    (ids : (parseRows text).map Row.taskId = rows.map Row.taskId)
    (task : Text) :
    seen (rewriteRows text rows) task =
      (rows.find? (·.taskId = task)).map shown := by
  rw [seen, parseRows_write legible distinct ids, find_shown legible]

end

/-! ## What a call decides -/

/-- A call that goes on has put a new row in the place of the first of its
task. -/
structure Decides (call : Call) (old rows : List Row) (row new : Row) :
    Prop where
  found : old.find? (·.taskId = call.task) = some row
  eq : rows = setRow old call.task new
  same : new.taskId = call.task
  status : new.status = "in progress".toList ↔ isClaim call
  idle : isClaim call → row.status ≠ "in progress".toList
  legible : Tidy row → '\n' ∉ call.agent → Legible new

theorem cell_busy : Cell "in progress".toList := by
  constructor <;> decide

theorem cell_free : Cell "free".toList := by
  constructor <;> decide

theorem free_ne_busy : "free".toList ≠ "in progress".toList := by decide

theorem decides_of_ok {call : Call} {old rows : List Row}
    (verdict : judge call old = .ok rows) :
    ∃ row new, Decides call old rows row new := by
  cases call with
  | claim task agent now =>
      cases found : old.find? (·.taskId = task) with
      | none =>
          simp only [judge, found] at verdict
          cases verdict
      | some row =>
          by_cases busy : row.status = "in progress".toList
          · simp only [judge, found, if_pos busy] at verdict
            cases verdict
          · simp only [judge, found, if_neg busy] at verdict
            refine ⟨row, _, found, (Except.ok.inj verdict).symm,
              (mem_of_find found).2, iff_of_true rfl rfl, fun _ => busy, ?_⟩
            intro tidy oneLine
            exact legible_of_oneLine tidy.task tidy.taskCell cell_busy
              oneLine (solid_format now).cell
  | release task agent =>
      cases found : old.find? (·.taskId = task) with
      | none =>
          simp only [judge, found] at verdict
          cases verdict
      | some row =>
          by_cases foreign : row.status = "in progress".toList ∧
              row.agent ≠ agent
          · simp only [judge, found, if_pos foreign] at verdict
            cases verdict
          · simp only [judge, found, if_neg foreign] at verdict
            refine ⟨row, _, found, (Except.ok.inj verdict).symm,
              (mem_of_find found).2,
              iff_of_false free_ne_busy Bool.false_ne_true,
              fun claim => absurd claim Bool.false_ne_true, ?_⟩
            intro tidy _
            exact legible_of_oneLine tidy.task tidy.taskCell cell_free
              List.not_mem_nil cell_nil

section

variable {call : Call} {old rows : List Row} {row new : Row}
  (decides : Decides call old rows row new)

include decides

theorem Decides.ids : rows.map Row.taskId = old.map Row.taskId := by
  rw [decides.eq, map_taskId_setRow decides.found decides.same]

theorem Decides.find_task :
    rows.find? (·.taskId = call.task) = some new := by
  rw [decides.eq, find_setRow decides.found decides.same]

theorem Decides.legible_rows (tidy : ∀ row ∈ old, Tidy row)
    (oneLine : '\n' ∉ call.agent) : ∀ row ∈ rows, Legible row := by
  intro other member
  rw [decides.eq] at member
  rcases of_mem_setRow member with before | rfl
  · exact legible_of_tidy (tidy other before)
  · exact decides.legible (tidy row (mem_of_find decides.found).1) oneLine

/-- The rows of other tasks are read back as they were. -/
theorem Decides.find_other (tidy : ∀ row ∈ old, Tidy row) {other : Text}
    (apart : other ≠ call.task) :
    (rows.find? (·.taskId = other)).map shown =
      rows.find? (·.taskId = other) := by
  rw [decides.eq,
    find_setRow_of_ne decides.found decides.same apart]
  cases found : old.find? (·.taskId = other) with
  | none => rfl
  | some row =>
      rw [Option.map_some,
        shown_of_tidy (tidy row (mem_of_find found).1)]

end

/-! ## The calls that returned -/

theorem lastOn_concat (calls : List Call) (call : Call) (task : Text) :
    lastOn (calls ++ [call]) task =
      if call.task = task then some call else lastOn calls task := by
  rw [lastOn, List.reverse_append, List.reverse_singleton,
    List.singleton_append, List.find?_cons]
  split
  · next same => rw [if_pos (of_decide_eq_true same)]
  · next apart => rw [if_neg (of_decide_eq_false apart), lastOn]

theorem granted_concat (past : List (Action ι Text Pending))
    (action : Action ι Text Pending) :
    granted (past ++ [action]) =
      granted past ++ if accepted action then [action.held.call] else [] := by
  rw [granted, List.filter_append, List.map_append, ← granted]
  cases here : accepted action <;> simp [here]

/-- Only a write returns `Ok`. -/
theorem accepted_iff (action : Action ι Text Pending) :
    accepted action ↔ ∃ rows read, action.held.phase = .write rows read := by
  obtain ⟨thread, ⟨call, phase⟩, text⟩ := action
  cases phase with
  | look =>
      apply iff_of_false _ (by simp)
      rw [accepted, act]
      cases judge call (parseRows text) <;> exact Bool.false_ne_true
  | reread rows => exact iff_of_false Bool.false_ne_true (by simp)
  | write rows read =>
      apply iff_of_true _ ⟨rows, read, rfl⟩
      cases call <;> rfl

/-! ## What holds between the actions -/

/-- The tasks are the old ones, and the last call on a task shows in its
row. -/
structure Agrees (ids : List Text) (calls : List Call) (text : Text) :
    Prop where
  ids : (parseRows text).map Row.taskId = ids
  last : ∀ task call, lastOn calls task = some call →
    (Busy text task ↔ isClaim call)

/-- A call has decided on the rows of an earlier text; if it is a claim, only
a call that came in between can have started the task. -/
structure Decided (ids : List Text) (calls : List Call) (call : Call)
    (rows : List Row) (text : Text) : Prop where
  read : ∃ old row new, (∀ row ∈ old, Tidy row) ∧
    old.map Row.taskId = ids ∧ Decides call old rows row new
  idle : isClaim call → lastOn calls call.task = none →
    ¬ Busy text call.task

def Waiting (ids : List Text) (calls : List Call) (held : Pending)
    (text : Text) : Prop :=
  '\n' ∉ held.call.agent ∧
    match held.phase with
    | .look => True
    | .reread rows => Decided ids calls held.call rows text
    | .write rows read =>
      Decided ids calls held.call rows text ∧
        (parseRows read).map Row.taskId = ids

section

variable {ids : List Text} {calls : List Call} {call : Call}
  {rows : List Row} {text read : Text}

theorem Decided.legible (decided : Decided ids calls call rows text)
    (oneLine : '\n' ∉ call.agent) : ∀ row ∈ rows, Legible row := by
  obtain ⟨old, row, new, tidy, -, decides⟩ := decided.read
  exact decides.legible_rows tidy oneLine

theorem Decided.map_taskId (decided : Decided ids calls call rows text) :
    rows.map Row.taskId = ids := by
  obtain ⟨old, row, new, -, same, decides⟩ := decided.read
  rw [decides.ids, same]

variable (distinct : ids.Nodup) (decided : Decided ids calls call rows text)
  (oneLine : '\n' ∉ call.agent)
  (whole : (parseRows read).map Row.taskId = ids)

include distinct decided oneLine whole

/-- After the write, the file shows the rows of the call. -/
theorem Decided.seen_eq (task : Text) :
    seen (rewriteRows read rows) task =
      (rows.find? (·.taskId = task)).map shown :=
  seen_write (decided.legible oneLine) (decided.map_taskId ▸ distinct)
    (whole.trans decided.map_taskId.symm) task

theorem Decided.seen_other {other : Text} (apart : other ≠ call.task) :
    seen (rewriteRows read rows) other =
      rows.find? (·.taskId = other) := by
  rw [decided.seen_eq distinct oneLine whole]
  obtain ⟨old, row, new, tidy, -, decides⟩ := decided.read
  exact decides.find_other tidy apart

theorem Decided.busy_iff :
    Busy (rewriteRows read rows) call.task ↔ isClaim call := by
  have legible := decided.legible oneLine
  have here := decided.seen_eq distinct oneLine whole call.task
  obtain ⟨old, row, new, tidy, -, decides⟩ := decided.read
  have member := (mem_of_find decides.find_task).1
  rw [decides.find_task, Option.map_some] at here
  rw [← decides.status, ← (legible new member).shown_status, Busy, here]
  constructor
  · rintro ⟨_, same, status⟩
    exact Option.some.inj same ▸ status
  · exact fun status => ⟨_, rfl, status⟩

theorem Decided.ids_write :
    (parseRows (rewriteRows read rows)).map Row.taskId = ids := by
  have legible := decided.legible oneLine
  rw [parseRows_write legible (decided.map_taskId ▸ distinct)
    (whole.trans decided.map_taskId.symm), map_taskId_shown legible,
    decided.map_taskId]

end

theorem busy_congr {text other task : Text}
    (same : seen text task = seen other task) :
    Busy text task ↔ Busy other task := by
  rw [Busy, Busy, same]

/-- A claim that is about to write finds its task in progress exactly if it
is held. -/
theorem Decided.busy_iff_held {ids : List Text} {calls : List Call}
    {call : Call} {rows : List Row} {text : Text}
    (decided : Decided ids calls call rows text)
    (agrees : Agrees ids calls text) (claim : isClaim call) :
    Busy text call.task ↔ Held calls call.task := by
  rw [Held]
  cases last : lastOn calls call.task with
  | none =>
      apply iff_of_false (decided.idle claim last)
      rintro ⟨_, none, -⟩
      exact absurd none nofun
  | some before =>
      rw [agrees.last _ before last]
      constructor
      · exact fun claimed => ⟨before, rfl, claimed⟩
      · rintro ⟨_, same, claimed⟩
        exact Option.some.inj same ▸ claimed

/-! ## One action -/

section

variable {ids : List Text} {past : List (Action ι Text Pending)}

/-- An action that writes nothing. -/
def Quiet (action : Action ι Text Pending) : Prop :=
  ∀ rows read, action.held.phase ≠ .write rows read

theorem fresh_of_quiet {action : Action ι Text Pending}
    (quiet : Quiet action) : Fresh action :=
  ⟨fun rows read here => absurd here (quiet rows read),
    fun rows read here => absurd here (quiet rows read)⟩

theorem not_accepted_of_quiet {action : Action ι Text Pending}
    (quiet : Quiet action) : ¬ accepted action := by
  rw [accepted_iff]
  rintro ⟨rows, read, here⟩
  exact quiet rows read here

theorem still_of_quiet {action : Action ι Text Pending}
    (quiet : Quiet action) :
    (act action.held action.shared).1 = action.shared := by
  obtain ⟨thread, ⟨call, phase⟩, text⟩ := action
  cases phase with
  | look =>
      dsimp only [act]
      cases judge call (parseRows text) <;> rfl
  | reread rows => rfl
  | write rows read => exact absurd rfl (quiet rows read)

theorem sound_of_quiet {action : Action ι Text Pending}
    (quiet : Quiet action) : Sound past action := by
  constructor
  · exact fun returned => absurd returned (not_accepted_of_quiet quiet)
  · intro other _
    rw [still_of_quiet quiet]

/-- A write is sound exactly if the file is as the call needs it. -/
theorem sound_write_iff (distinct : ids.Nodup)
    {action : Action ι Text Pending} {rows : List Row} {read : Text}
    (here : action.held.phase = .write rows read)
    (agrees : Agrees ids (granted past) action.shared)
    (waiting : Waiting ids (granted past) action.held action.shared) :
    Sound past action ↔ Fresh action := by
  obtain ⟨thread, ⟨call, phase⟩, text⟩ := action
  dsimp only at here agrees waiting
  subst here
  obtain ⟨oneLine, decided, whole⟩ := waiting
  have returned : accepted (⟨thread, ⟨call, .write rows read⟩, text⟩ :
      Action ι Text Pending) := (accepted_iff _).mpr ⟨rows, read, rfl⟩
  have other_eq : ∀ other, other ≠ call.task →
      seen (rewriteRows read rows) other =
        rows.find? (·.taskId = other) :=
    fun other apart => decided.seen_other distinct oneLine whole apart
  constructor
  · intro sound
    constructor
    · rintro rows' read' same other apart
      cases same
      exact (other_eq other apart).symm.trans (sound.others other apart)
    · rintro rows' read' same claim
      rw [decided.busy_iff_held agrees claim]
      exact sound.single returned claim
  · intro fresh
    constructor
    · intro _ claim
      rw [← decided.busy_iff_held agrees claim]
      exact fresh.idle rows read rfl claim
    · intro other apart
      exact (other_eq other apart).trans
        (fresh.others rows read rfl other apart)

/-- What is held of a call stays true over the write of another one. -/
theorem Decided.write {calls : List Call} {call writer : Call}
    {rows : List Row} {text after : Text}
    (decided : Decided ids calls call rows text)
    (others : ∀ other, other ≠ writer.task →
      seen after other = seen text other) :
    Decided ids (calls ++ [writer]) call rows after := by
  refine ⟨decided.read, fun claim none => ?_⟩
  rw [lastOn_concat] at none
  split at none
  · exact absurd none nofun
  · next apart =>
      rw [busy_congr (others call.task (Ne.symm apart))]
      exact decided.idle claim none

theorem Waiting.write {calls : List Call} {held : Pending} {writer : Call}
    {text after : Text} (waiting : Waiting ids calls held text)
    (others : ∀ other, other ≠ writer.task →
      seen after other = seen text other) :
    Waiting ids (calls ++ [writer]) held after := by
  obtain ⟨call, phase⟩ := held
  obtain ⟨oneLine, at_phase⟩ := waiting
  refine ⟨oneLine, ?_⟩
  cases phase with
  | look => trivial
  | reread rows => exact Decided.write at_phase others
  | write rows read => exact ⟨at_phase.1.write others, at_phase.2⟩

end

section

variable {ids : List Text} {past : List (Action ι Text Pending)}
  {action : Action ι Text Pending}

/-- What is left of a call that has read the rows or the text. -/
theorem waiting_rest (agrees : Agrees ids (granted past) action.shared)
    (waiting : Waiting ids (granted past) action.held action.shared)
    (rest : Pending)
    (left : (act action.held action.shared).2.rest = some rest) :
    Waiting ids (granted past) rest action.shared := by
  obtain ⟨thread, ⟨call, phase⟩, text⟩ := action
  obtain ⟨oneLine, at_phase⟩ := waiting
  dsimp only [act] at left ⊢
  cases phase with
  | look =>
      dsimp only at left
      cases verdict : judge call (parseRows text) with
      | error error =>
          rw [verdict] at left
          exact absurd left nofun
      | ok rows =>
          rw [verdict] at left
          obtain rfl := Option.some.inj left
          obtain ⟨row, new, decides⟩ := decides_of_ok verdict
          refine ⟨oneLine, ⟨parseRows text, row, new,
            fun row member => tidy_of_mem member, agrees.ids, decides⟩, ?_⟩
          rintro claim - ⟨other, found, busy⟩
          obtain rfl := Option.some.inj (found.symm.trans decides.found)
          exact decides.idle claim busy
  | reread rows =>
      obtain rfl := Option.some.inj left
      exact ⟨oneLine, at_phase, agrees.ids⟩
  | write rows read => exact absurd left nofun

theorem hands_quiet (quiet : Quiet action)
    (agrees : Agrees ids (granted past) action.shared)
    (waiting : Waiting ids (granted past) action.held action.shared) :
    Hands registries (Agrees ids (granted (past ++ [action])))
      (Waiting ids (granted past))
      (Waiting ids (granted (past ++ [action]))) action.held
      action.shared := by
  have still := still_of_quiet quiet
  rw [granted_concat, if_neg (not_accepted_of_quiet quiet),
    List.append_nil]
  constructor
  · rw [registries, still]
    exact agrees
  · intro rest left
    rw [registries, still]
    exact waiting_rest agrees waiting rest left
  · intro other there
    rw [registries, still]
    exact there

theorem hands_write (distinct : ids.Nodup) {rows : List Row} {read : Text}
    (here : action.held.phase = .write rows read)
    (agrees : Agrees ids (granted past) action.shared)
    (waiting : Waiting ids (granted past) action.held action.shared)
    (sound : Sound past action) :
    Hands registries (Agrees ids (granted (past ++ [action])))
      (Waiting ids (granted past))
      (Waiting ids (granted (past ++ [action]))) action.held
      action.shared := by
  have returned := (accepted_iff action).mpr ⟨rows, read, here⟩
  rw [granted_concat, if_pos returned]
  obtain ⟨thread, ⟨call, phase⟩, text⟩ := action
  dsimp only at here agrees waiting ⊢
  subst here
  obtain ⟨oneLine, decided, whole⟩ := waiting
  constructor
  · constructor
    · exact decided.ids_write distinct oneLine whole
    · intro task before last
      rw [lastOn_concat] at last
      split at last
      · next same =>
          obtain rfl := Option.some.inj last
          subst same
          exact decided.busy_iff distinct oneLine whole
      · next apart =>
          exact (busy_congr (sound.others task (Ne.symm apart))).trans
            (agrees.last task before last)
  · exact fun rest none => absurd none nofun
  · exact fun other there => there.write sound.others

end

/-- The tasks and the last calls, and what each call has read, are handed on
by every action that finds the file as it needs it. -/
theorem judges {ids : List Text} (distinct : ids.Nodup) :
    Judges registries (fun call => '\n' ∉ call.agent)
      (Sound (ι := ι)) Fresh
      (fun past text => Agrees ids (granted past) text)
      (fun past held text => Waiting ids (granted past) held text) := by
  have writes : ∀ action : Action ι Text Pending,
      (∃ rows read, action.held.phase = .write rows read) ∨
        Quiet action := by
    intro action
    rw [or_iff_not_imp_left]
    rintro quiet rows read here
    exact quiet ⟨rows, read, here⟩
  constructor
  · exact fun past call text oneLine _ => ⟨oneLine, trivial⟩
  · intro past action agrees waiting
    rcases writes action with ⟨rows, read, here⟩ | quiet
    · exact sound_write_iff distinct here agrees waiting
    · exact iff_of_true (sound_of_quiet quiet) (fresh_of_quiet quiet)
  · intro past action agrees waiting fresh
    rcases writes action with ⟨rows, read, here⟩ | quiet
    · exact hands_write distinct here agrees waiting
        ((sound_write_iff distinct here agrees waiting).mpr fresh)
    · exact hands_quiet quiet agrees waiting

/-! ## Runs -/

/-- All that the calls of a run leave behind is sound. -/
def Safe (text : Text) [DecidableEq ι] (events : List (Event ι Call)) :
    Prop :=
  Throughout Sound [] (actions registries (Config.idle text) events)

/-- On a table of distinct tasks, no task is held twice and no call undoes
another exactly if every write finds the file as its call needs it. -/
theorem safe_iff [DecidableEq ι] {text : Text}
    (distinct : ((parseRows text).map Row.taskId).Nodup)
    {events : List (Event ι Call)}
    (oneLine : ∀ agent call, Event.start agent call ∈ events →
      '\n' ∉ call.agent) :
    Safe text events ↔
      ∀ action ∈ actions registries (Config.idle text) events,
        Fresh action := by
  apply (judges distinct).throughout_iff _ oneLine
  exact holds_idle ⟨rfl, fun task call none => nomatch none⟩

def claimAmy : Call :=
  .claim "P1.1".toList "amy".toList ⟨2026, 9, 1, 10, 0, 0⟩

def claimBob : Call :=
  .claim "P1.1".toList "bob".toList ⟨2026, 9, 1, 10, 0, 1⟩

/-- The rows that Amy writes when she finds two tasks. -/
def rowsAmy : List Row :=
  setRow (parseRows twoTasks) "P1.1".toList
    ⟨"P1.1".toList, "in progress".toList, "amy".toList,
      "2026-09-01T10:00:00Z".toList⟩

def rowsBob : List Row :=
  setRow (parseRows twoTasks) "P1.1".toList
    ⟨"P1.1".toList, "in progress".toList, "bob".toList,
      "2026-09-01T10:00:01Z".toList⟩

/-- Amy claims the task, and Bob is refused behind her. -/
def oneAfterOther : List (Event Bool Call) :=
  [.start false claimAmy, .advance false, .advance false, .advance false,
    .start true claimBob, .advance true]

theorem actions_oneAfterOther :
    actions registries (Config.idle twoTasks) oneAfterOther =
      [⟨false, ⟨claimAmy, .look⟩, twoTasks⟩,
        ⟨false, ⟨claimAmy, .reread rowsAmy⟩, twoTasks⟩,
        ⟨false, ⟨claimAmy, .write rowsAmy twoTasks⟩, twoTasks⟩,
        ⟨true, ⟨claimBob, .look⟩, rewriteRows twoTasks rowsAmy⟩] := by
  decide +kernel

/-- Amy and Bob both read the task free. -/
def bothAtOnce : List (Event Bool Call) :=
  [.start false claimAmy, .start true claimBob, .advance false,
    .advance true, .advance false, .advance false, .advance true,
    .advance true]

theorem actions_bothAtOnce :
    actions registries (Config.idle twoTasks) bothAtOnce =
      [⟨false, ⟨claimAmy, .look⟩, twoTasks⟩,
        ⟨true, ⟨claimBob, .look⟩, twoTasks⟩,
        ⟨false, ⟨claimAmy, .reread rowsAmy⟩, twoTasks⟩,
        ⟨false, ⟨claimAmy, .write rowsAmy twoTasks⟩, twoTasks⟩,
        ⟨true, ⟨claimBob, .reread rowsBob⟩, rewriteRows twoTasks rowsAmy⟩,
        ⟨true, ⟨claimBob, .write rowsBob (rewriteRows twoTasks rowsAmy)⟩,
          rewriteRows twoTasks rowsAmy⟩] := by
  decide +kernel

theorem oneLine_twoAgents {events : List (Event Bool Call)}
    (calls : ∀ agent call, Event.start agent call ∈ events →
      call = claimAmy ∨ call = claimBob) :
    ∀ agent call, Event.start agent call ∈ events →
      '\n' ∉ call.agent := by
  intro agent call member
  rcases calls agent call member with rfl | rfl <;> decide

theorem safe_oneAfterOther : Safe twoTasks oneAfterOther := by
  refine (safe_iff (by decide +kernel) (oneLine_twoAgents ?_)).mpr ?_
  · simp [oneAfterOther]
  · rw [actions_oneAfterOther]
    simp only [List.forall_mem_cons]
    have free : seen twoTasks "P1.1".toList =
        some ⟨"P1.1".toList, "free".toList, [], []⟩ := by decide +kernel
    refine ⟨fresh_of_quiet (by simp [Quiet]),
      fresh_of_quiet (by simp [Quiet]), ⟨?_, ?_⟩,
      fresh_of_quiet (by simp [Quiet]), nofun⟩
    · rintro rows read same other apart
      cases same
      exact find_setRow_of_ne free rfl apart
    · rintro rows read same - ⟨row, found, busy⟩
      obtain rfl := Option.some.inj (found.symm.trans free)
      exact free_ne_busy busy

/-- Both calls return `Ok`, and nobody has released the task. -/
theorem not_safe_bothAtOnce :
    granted (actions registries (Config.idle twoTasks) bothAtOnce) =
        [claimAmy, claimBob] ∧
      ¬ Safe twoTasks bothAtOnce := by
  constructor
  · rw [actions_bothAtOnce]
    decide +kernel
  · rw [Safe, actions_bothAtOnce]
    rintro ⟨-, -, -, -, -, last, -⟩
    exact last.single rfl rfl ⟨claimAmy, by decide +kernel, rfl⟩

end Runa.Memory.SharedTable
