import Mathlib.Data.List.Sort
import Runa.Stream.Lines

/-!
# The registry of task claims

`TaskRegistry` keeps its claims in a markdown table.  Every call reads the
text, looks at the rows in it and, if something was granted, writes the rows
into their lines.  The text is the only state; the clock is an argument.
-/

namespace Runa.Memory.Registry

open Runa.Stream.Utf8
open Runa.Stream.Lines

/-- Live claim returned on successful `claim`. -/
structure TaskClaim where
  taskId : Text
  agent : Text
  startedAt : Text
  deriving DecidableEq

/-- Row status (read-only view). -/
inductive TaskStatus where
  | free
  | inProgress (agent startedAt : Text)
  deriving DecidableEq

/-- Claim/release failures. -/
inductive ClaimError where
  | notFound
  | alreadyClaimed (agent startedAt : Text)
  | notOwner (agent : Text)
  deriving DecidableEq

structure Row where
  taskId : Text
  status : Text
  agent : Text
  started : Text
  deriving DecidableEq

def Row.intoStatus (row : Row) : TaskStatus :=
  if row.status = "free".toList then .free
  else .inProgress row.agent row.started

/-! ## Reading the rows -/

/-- `str::split_once` at a character -/
def splitOnce (mark : Char) : Text → Option (Text × Text)
  | [] => none
  | char :: rest =>
    if char = mark then some ([], rest)
    else (splitOnce mark rest).map fun (before, after) =>
      (char :: before, after)

/-- At least one character, and all of them ASCII digits. -/
def digits (text : Text) : Bool :=
  !text.isEmpty && text.all Char.isDigit

def isTaskId : Text → Bool
  | 'P' :: rest =>
    match splitOnce '.' rest with
    | some (phase, sub) => digits phase && digits sub
    | none => false
  | 'K' :: rest => digits rest
  | _ => false

/-- The texts between the bars of a line. -/
def cells (line : Text) : List Text :=
  ((trim line).splitOn '|').map trim

def parseRowLine (line : Text) : Option Row :=
  if (trim line).head? ≠ some '|' then none
  else
    match cells line with
    | _ :: task :: status :: agent :: started :: _ :: _ =>
      if task = "Task".toList ∨ task = "------".toList then none
      else if isTaskId task then some ⟨task, status, agent, started⟩
      else none
    | _ => none

def parseRows (text : Text) : List Row :=
  (lines text).filterMap fun line =>
    if line.head? = some '#' then none else parseRowLine line

/-! ## Writing the rows -/

/-- What stands between two cells. -/
def bar : Text :=
  [' ', '|', ' ']

/-- `| task | status | agent | started |` -/
def formatRow (row : Row) : Text :=
  ['|', ' '] ++ row.taskId ++ bar ++ row.status ++ bar ++ row.agent ++
    bar ++ row.started ++ [' ', '|']

/-- The row of a task in the map; the last of several stays in it. -/
def lookup (rows : List Row) (task : Text) : Option Row :=
  rows.reverse.find? (·.taskId = task)

def rewriteLine (rows : List Row) (line : Text) : Text :=
  match parseRowLine line with
  | none => line
  | some row =>
    match lookup rows row.taskId with
    | none => line
    | some updated => formatRow updated

def rewriteRows (text : Text) (rows : List Row) : Text :=
  relines (rewriteLine rows) text

/-! ## The order of the tasks -/

/-- `str::parse::<u32>` -/
def parseU32 (text : Text) : Option Nat :=
  let number :=
    match text with
    | '+' :: rest => rest
    | _ => text
  let value := number.foldl (fun sum char => 10 * sum + (char.toNat - 48)) 0
  if digits number ∧ value < 2 ^ 32 then some value else none

def taskOrderKey : Text → Nat × Nat × Nat
  | 'P' :: rest =>
    match splitOnce '.' rest with
    | some (phase, sub) =>
      (0, (parseU32 phase).getD 999, (parseU32 sub).getD 999)
    | none => (2, 999, 999)
  | 'K' :: rest => (1, (parseU32 rest).getD 999, 0)
  | _ => (2, 999, 999)

/-- The order of the keys, which is that of tuples. -/
def keyLe (one other : Text) : Prop :=
  let (a, b, c) := taskOrderKey one
  let (x, y, z) := taskOrderKey other
  a < x ∨ a = x ∧ (b < y ∨ b = y ∧ c ≤ z)

instance : DecidableRel keyLe := fun _ _ =>
  inferInstanceAs (Decidable (_ < _ ∨ _ = _ ∧ (_ < _ ∨ _ = _ ∧ _ ≤ _)))

/-! ## The clock -/

/-- A moment of `Utc::now`, to the second. -/
structure Moment where
  year : Int
  month : Nat
  day : Nat
  hour : Nat
  minute : Nat
  second : Nat
  deriving DecidableEq

/-- A number with zeros in front of it. -/
def pad (width value : Nat) : Text :=
  let shown := Nat.toDigits 10 value
  List.replicate (width - shown.length) '0' ++ shown

/-- `%Y`: four digits, behind a sign outside the years 0 to 9999. -/
def formatYear (year : Int) : Text :=
  if year < 0 then '-' :: pad 4 year.natAbs
  else if 9999 < year then '+' :: pad 4 year.natAbs
  else pad 4 year.natAbs

/-- `%Y-%m-%dT%H:%M:%SZ` -/
def Moment.format (now : Moment) : Text :=
  formatYear now.year ++ '-' :: pad 2 now.month ++ '-' :: pad 2 now.day ++
    'T' :: pad 2 now.hour ++ ':' :: pad 2 now.minute ++
    ':' :: pad 2 now.second ++ ['Z']

/-! ## The calls -/

def listFree (text : Text) : List Text :=
  (((parseRows text).filter (·.status = "free".toList)).map
    Row.taskId).insertionSort keyLe

def status (text task : Text) : Option TaskStatus :=
  ((parseRows text).find? (·.taskId = task)).map Row.intoStatus

/-- The rows with another one in the place of the first of the task. -/
def setRow (rows : List Row) (task : Text) (row : Row) : List Row :=
  rows.set (rows.findIdx (·.taskId = task)) row

def claim (text task agent : Text) (now : Moment) :
    Except ClaimError TaskClaim × Text :=
  let rows := parseRows text
  match rows.find? (·.taskId = task) with
  | none => (.error .notFound, text)
  | some row =>
    if row.status = "in progress".toList then
      (.error (.alreadyClaimed row.agent row.started), text)
    else
      let startedAt := now.format
      let claimed :=
        { row with
          status := "in progress".toList
          agent := agent
          started := startedAt }
      (.ok ⟨task, agent, startedAt⟩,
        rewriteRows text (setRow rows task claimed))

def release (text task agent : Text) : Except ClaimError Unit × Text :=
  let rows := parseRows text
  match rows.find? (·.taskId = task) with
  | none => (.error .notFound, text)
  | some row =>
    if row.status = "in progress".toList ∧ row.agent ≠ agent then
      (.error (.notOwner row.agent), text)
    else
      let released :=
        { row with status := "free".toList, agent := [], started := [] }
      (.ok (), rewriteRows text (setRow rows task released))

end Runa.Memory.Registry
