import Runa.Memory.SharedTable

/-!
# Agents by the name they give

A name is written into its cell as it is and read back without the blanks
around it, up to the next bar and to the end of the line.  `agreed_iff` says
which names are read back, and that a claim under any other name is one that
nobody can take back by that name.
-/

namespace Runa.Memory.AgentNames

open Runa.Stream.Utf8
open Runa.Memory.Registry
open Runa.Memory.LockTable hiding parseRows_write
open Runa.Memory.SharedTable

/-- The claim shows under the name of the agent, no other task has changed,
and the agent can release the task. -/
structure Agreed (text task agent : Text) (now : Moment) : Prop where
  held : ∃ since, status (claim text task agent now).2 task =
    some (.inProgress agent since)
  others : ∀ other, other ≠ task →
    seen (claim text task agent now).2 other = seen text other
  released : (release (claim text task agent now).2 task agent).1 = .ok ()
  freed : status (release (claim text task agent now).2 task agent).2 task =
    some .free

/-- A row of the table was written anew. -/
structure Rewritten (text task : Text) (new : Row) (after : Text) :
    Prop where
  distinct : ((parseRows after).map Row.taskId).Nodup
  here : seen after task = some new
  others : ∀ other, other ≠ task → seen after other = seen text other

section

variable {text task agent : Text} {row new : Row}
  (distinct : ((parseRows text).map Row.taskId).Nodup)

include distinct

theorem rewritten (found : seen text task = some row) (tidy : Tidy new)
    (same : new.taskId = task) :
    Rewritten text task new
      (rewriteRows text (setRow (parseRows text) task new)) := by
  have ids := map_taskId_setRow found same
  have all : ∀ other ∈ setRow (parseRows text) task new, Tidy other :=
    tidy_setRow tidy
  have legible : ∀ other ∈ setRow (parseRows text) task new,
      Legible other :=
    fun other member => legible_of_tidy (all other member)
  have apart : ((setRow (parseRows text) task new).map Row.taskId).Nodup := by
    rw [ids]
    exact distinct
  have written := seen_write legible apart ids.symm
  constructor
  · rw [parseRows_write legible apart ids.symm, map_taskId_shown legible]
    exact apart
  · rw [written, find_setRow found same, Option.map_some,
      shown_of_tidy tidy]
  · intro other foreign
    rw [written, find_setRow_of_ne found same foreign]
    show (seen text other).map shown = seen text other
    cases there : seen text other with
    | none => rfl
    | some old =>
        rw [Option.map_some,
          shown_of_tidy (tidy_of_mem (mem_of_find there).1)]

/-- A claim writes its row, where the name can stand in a cell. -/
theorem rewritten_claim (now : Moment) (cell : Cell agent)
    (free : status text task = some .free) :
    ∃ row, row.status = "in progress".toList ∧ row.agent = agent ∧
      Rewritten text task row (claim text task agent now).2 := by
  rcases claim_of_free agent now free with ⟨row, found, claimed⟩
  rcases mem_of_find found with ⟨member, same⟩
  have old := tidy_of_mem member
  have tidy :
      Tidy ⟨row.taskId, "in progress".toList, agent, now.format⟩ := by
    constructor
    · exact old.task
    · exact old.taskCell
    · exact cell_busy
    · exact cell
    · exact (solid_format now).cell
  refine ⟨⟨row.taskId, "in progress".toList, agent, now.format⟩, rfl, rfl,
    ?_⟩
  rw [claimed]
  exact rewritten distinct found tidy same

/-- Who holds a task can release it. -/
theorem release_of_held (found : seen text task = some row)
    (busy : row.status = "in progress".toList) (mine : row.agent = agent) :
    (release text task agent).1 = .ok () ∧
      status (release text task agent).2 task = some .free := by
  have held : status text task = some (.inProgress agent row.started) := by
    show (seen text task).map Row.intoStatus = _
    rw [found, Option.map_some, intoStatus_busy busy, mine]
  rcases release_of_granted (Or.inr ⟨row.started, held⟩) with
    ⟨old, there, released⟩
  rcases mem_of_find there with ⟨member, same⟩
  have tidy : Tidy ⟨old.taskId, "free".toList, [], []⟩ := by
    constructor
    · exact (tidy_of_mem member).task
    · exact (tidy_of_mem member).taskCell
    · exact cell_free
    · exact cell_nil
    · exact cell_nil
  have written := rewritten distinct there tidy same
  constructor
  · rw [released]
  · rw [released]
    show (seen _ task).map Row.intoStatus = _
    rw [written.here, Option.map_some, intoStatus_free rfl]

end

/-- Whoever is read from a table has a name that can stand in a cell. -/
theorem cell_of_status {text task agent since : Text}
    (held : status text task = some (.inProgress agent since)) :
    Cell agent := by
  rcases status_eq_some held with ⟨row, found, state⟩
  rw [Row.intoStatus] at state
  split at state
  · cases state
  · cases state
    exact (tidy_of_mem (mem_of_find found).1).agentCell

/-- In a table of distinct tasks, a free task that is claimed is seen and
released under the name of the agent exactly if nothing of the name is
trimmed and it has neither a bar nor a line break. -/
theorem agreed_iff {text task agent : Text} (now : Moment)
    (distinct : ((parseRows text).map Row.taskId).Nodup)
    (free : status text task = some .free) :
    (∀ made, (claim text task agent now).1 = .ok made →
        Agreed text task agent now) ↔
      Cell agent := by
  constructor
  · intro agreed
    rcases claim_of_free agent now free with ⟨row, found, claimed⟩
    have granted := congrArg Prod.fst claimed
    rcases (agreed _ granted).held with ⟨since, held⟩
    exact cell_of_status held
  · intro cell made granted
    rcases rewritten_claim distinct now cell free with
      ⟨row, busy, mine, written⟩
    have release := release_of_held written.distinct written.here busy mine
    constructor
    · use row.started
      show (seen _ task).map Row.intoStatus = _
      rw [written.here, Option.map_some, intoStatus_busy busy, mine]
    · exact written.others
    · exact release.1
    · exact release.2

theorem agreed_bob :
    Agreed twoTasks "P1.1".toList "bob".toList ⟨2026, 9, 1, 10, 0, 0⟩ :=
  (agreed_iff ⟨2026, 9, 1, 10, 0, 0⟩ shaped_twoTasks.distinct
    (by decide +kernel)).mpr named_bob.cell _ rfl

/-- The task is claimed, but the bar ends the name, and its owner is not the
owner. -/
theorem not_agreed_bar :
    Shaped twoTasks ∧ status twoTasks "P1.1".toList = some .free ∧
      (∃ made, (claim twoTasks "P1.1".toList "team|bob".toList
        ⟨2026, 9, 1, 10, 0, 0⟩).1 = .ok made) ∧
      (release (claim twoTasks "P1.1".toList "team|bob".toList
          ⟨2026, 9, 1, 10, 0, 0⟩).2 "P1.1".toList "team|bob".toList).1 =
        .error (.notOwner "team".toList) ∧
      ¬ Agreed twoTasks "P1.1".toList "team|bob".toList
        ⟨2026, 9, 1, 10, 0, 0⟩ := by
  have refused : (release (claim twoTasks "P1.1".toList "team|bob".toList
      ⟨2026, 9, 1, 10, 0, 0⟩).2 "P1.1".toList "team|bob".toList).1 =
        .error (.notOwner "team".toList) := by
    decide +kernel
  refine ⟨shaped_twoTasks, by decide +kernel, ?_, refused, ?_⟩
  · exact ⟨⟨"P1.1".toList, "team|bob".toList,
      "2026-09-01T10:00:00Z".toList⟩, by decide +kernel⟩
  · intro agreed
    cases refused.symm.trans agreed.released

end Runa.Memory.AgentNames
