import Runa.Concurrent.Interleaving
import Runa.Memory.LockTable

/-!
# Many registries on one file

Every agent opens a `TaskRegistry` of its own, and the lock of a registry is
not shared with the others.  So a call is three actions on the file: it reads
the rows and is refused or goes on, it reads the text again, and it writes the
rows of its first read into that text.  The calls of the agents interleave in
any way.
-/

namespace Runa.Memory.Agents

open Runa.Stream.Utf8
open Runa.Stream.Lines
open Runa.Memory.Registry
open Runa.Memory.LockTable
open Runa.Concurrent.Interleaving

/-! ## The calls in steps -/

/-- Where a call stands: before its first read, before its second, or before
its write. -/
inductive Phase where
  | look
  | reread (rows : List Row)
  | write (rows : List Row) (text : Text)
  deriving DecidableEq

structure Pending where
  call : Call
  phase : Phase
  deriving DecidableEq

inductive Answer where
  | claimed (made : TaskClaim)
  | released
  | refused (error : ClaimError)

/-- What a call makes of the rows that it reads. -/
def judge : Call → List Row → Except ClaimError (List Row)
  | .claim task agent now, rows =>
    match rows.find? (·.taskId = task) with
    | none => .error .notFound
    | some row =>
      if row.status = "in progress".toList then
        .error (.alreadyClaimed row.agent row.started)
      else
        let claimed :=
          { row with
            status := "in progress".toList
            agent := agent
            started := now.format }
        .ok (setRow rows task claimed)
  | .release task agent, rows =>
    match rows.find? (·.taskId = task) with
    | none => .error .notFound
    | some row =>
      if row.status = "in progress".toList ∧ row.agent ≠ agent then
        .error (.notOwner row.agent)
      else
        let released :=
          { row with status := "free".toList, agent := [], started := [] }
        .ok (setRow rows task released)

def answer : Call → Answer
  | .claim task agent now => .claimed ⟨task, agent, now.format⟩
  | .release _ _ => .released

def act : Pending → Text → Text × Onward Pending Answer
  | ⟨call, .look⟩, text =>
    match judge call (parseRows text) with
    | .error error => (text, .done (.refused error))
    | .ok rows => (text, .more ⟨call, .reread rows⟩)
  | ⟨call, .reread rows⟩, text => (text, .more ⟨call, .write rows text⟩)
  | ⟨call, .write rows read⟩, _ =>
    (rewriteRows read rows, .done (answer call))

/-- The registries of the agents on one file. -/
def registries : System Text Call Pending Answer where
  enter := fun call => ⟨call, .look⟩
  act := act

/-- The call of a registry in terms of its judgement. -/
theorem next_eq (text : Text) (call : Call) :
    next text call =
      match judge call (parseRows text) with
      | .error _ => text
      | .ok rows => rewriteRows text rows := by
  cases call with
  | claim task agent now =>
      cases found : (parseRows text).find? (·.taskId = task) with
      | none => simp only [next, claim, judge, found]
      | some row =>
          by_cases busy : row.status = "in progress".toList
          · simp only [next, claim, judge, found, if_pos busy]
          · simp only [next, claim, judge, found, if_neg busy]
  | release task agent =>
      cases found : (parseRows text).find? (·.taskId = task) with
      | none => simp only [next, release, judge, found]
      | some row =>
          by_cases foreign : row.status = "in progress".toList ∧
              row.agent ≠ agent
          · simp only [next, release, judge, found, if_pos foreign]
          · simp only [next, release, judge, found, if_neg foreign]

/-- With nobody in between, the three actions are the call of the registry. -/
theorem run_alone {ι : Type} [DecidableEq ι] (agent : ι) (text : Text)
    (call : Call) :
    (run registries (Config.idle text : Config ι Text Pending)
      [.start agent call, .advance agent, .advance agent,
        .advance agent]).shared = next text call := by
  rw [next_eq]
  simp only [run_cons, run_nil, step, Config.idle, Config.begin,
    Config.take, registries, Function.update_self, act]
  cases judge call (parseRows text) with
  | error error => simp only [Onward.rest, Function.update_self]
  | ok rows => simp only [Onward.rest, Function.update_self]

end Runa.Memory.Agents
