import Runa.Stream.Lines
import Mathlib.Order.Basic

/-!
# Thinking budgets

The embedding of the request-level thinking configuration of
`runa-core/src/think.rs` and of `BudgetClock`, the counter that decides when
a reasoning block is to be closed.  The clock is told after every token
whether the parser is inside a block; `BudgetClock.Counts` is what it then
knows about the current block, and `BudgetClock.Counts.observe` keeps it.
-/

namespace Runa.Core.Think

open Runa.Stream.Utf8
open Runa.Stream.Lines (trim)

/-! ## Configuration -/

/-- Default grace tokens when a budget is set without an explicit grace. -/
def defaultGrace : UInt32 := 64

inductive Effort where
  | low
  | medium
  | high
  | max
deriving DecidableEq, Repr

/-- `Display` -/
def Effort.name : Effort → Text
  | .low => "low".toList
  | .medium => "medium".toList
  | .high => "high".toList
  | .max => "max".toList

/-- Parse `low|medium|high|max` (case-insensitive). -/
def Effort.parse (text : Text) : Except Text Effort :=
  let lowered := (trim text).map Char.toLower
  if lowered = "low".toList then .ok .low
  else if lowered = "medium".toList then .ok .medium
  else if lowered = "high".toList then .ok .high
  else if lowered = "max".toList then .ok .max
  else
    .error
      (lowered ++ ": --effort must be low | medium | high | max".toList)

theorem Effort.parse_name (effort : Effort) :
    Effort.parse effort.name = .ok effort := by
  cases effort <;> decide +kernel

def effortBudgetLow : UInt32 := 512

def effortBudgetMedium : UInt32 := 2048

def effortBudgetHigh : UInt32 := 8192

/-- The cap of an effort; `max` is unlimited. -/
def Effort.cap : Effort → Option UInt32
  | .low => some effortBudgetLow
  | .medium => some effortBudgetMedium
  | .high => some effortBudgetHigh
  | .max => none

/-- Map effort to a reasoning token budget. -/
def Effort.budgetTokens
    (effort : Effort) (remainingCtx : UInt32) : Option UInt32 :=
  effort.cap.map fun cap => min cap remainingCtx

/-- How thinking is enabled for a request. -/
inductive ThinkMode where
  | off
  | on
  | budget (tokens grace : UInt32)
  | effort (effort : Effort)
deriving DecidableEq, Repr

/-- Request-level thinking config; `show` surfaces reasoning to the user. -/
structure ThinkConfig where
  mode : ThinkMode
  «show» : Bool
deriving DecidableEq, Repr

def ThinkConfig.default : ThinkConfig where
  mode := .off
  «show» := false

/-- Effective reasoning budget; none is unlimited. -/
def ThinkConfig.reasoningBudget
    (think : ThinkConfig) (remainingCtx : UInt32) : Option UInt32 :=
  match think.mode with
  | .off => none
  | .on => none
  | .budget tokens _ => some (min tokens remainingCtx)
  | .effort effort => effort.budgetTokens remainingCtx

/-- Sparse overlay from CLI flags, env, `[think]`, or `/think`. -/
structure ThinkOverrides where
  think : Option Bool
  budget : Option UInt32
  grace : Option UInt32
  effort : Option Effort
  «show» : Option Bool
deriving DecidableEq, Repr

def ThinkOverrides.default : ThinkOverrides where
  think := none
  budget := none
  grace := none
  effort := none
  «show» := none

def ThinkMode.grace : ThinkMode → UInt32
  | .budget _ grace => grace
  | _ => defaultGrace

/-- Overlay flags or config onto this base. -/
def ThinkConfig.apply (config : ThinkConfig) (layer : ThinkOverrides) :
    Except Text ThinkConfig :=
  if layer.think = some false ∧
      (layer.budget.isSome ∨ layer.effort.isSome) then
    .error
      "--think off cannot be combined with --think-budget or --effort".toList
  else if layer.budget.isSome ∧ layer.effort.isSome then
    .error "--think-budget and --effort cannot be combined".toList
  else
    let grace := layer.grace.getD config.mode.grace
    .ok
      { mode :=
          match layer.budget, layer.effort, layer.think with
          | some tokens, _, _ => .budget tokens grace
          | none, some effort, _ => .effort effort
          | none, none, some true => .on
          | none, none, some false => .off
          | none, none, none =>
            match config.mode with
            | .budget tokens kept =>
              .budget tokens (layer.grace.getD kept)
            | other => other
        «show» := layer.show.getD config.show }

/-! ## The clock -/

/-- What the sampler should do on the next decode step. -/
inductive ForceKind where
  | sample
  | bias
  | force
deriving DecidableEq, Repr

/-- Message in front of the close tag when the hard budget is hit. -/
def budgetMessage : Text := "Answer now.".toList

/-- Counts reasoning tokens after think-open; decides bias or inject. -/
structure BudgetClock where
  budget : UInt32
  grace : UInt32
  counted : UInt32
  wasInReason : Bool
  forcing : Bool
  done : Bool
deriving DecidableEq, Repr

def BudgetClock.new (budget grace : UInt32) : BudgetClock where
  budget := budget
  grace := grace
  counted := 0
  wasInReason := false
  forcing := false
  done := false

def BudgetClock.fromThink
    (think : ThinkConfig) (remainingCtx : UInt32) : Option BudgetClock :=
  (think.reasoningBudget remainingCtx).map fun budget =>
    .new budget
      (match think.mode with
        | .budget _ grace => grace
        | _ => defaultGrace)

def saturatingAdd (left right : UInt32) : UInt32 :=
  if left.toNat + right.toNat < UInt32.size then left + right
  else 4294967295

def saturatingSub (left right : UInt32) : UInt32 :=
  if right ≤ left then left - right else 0

/-- Token count at which the close-tag bias starts. -/
def BudgetClock.biasAt (clock : BudgetClock) : UInt32 :=
  saturatingSub clock.budget clock.grace

/-- After a generated token has been parsed. -/
def BudgetClock.observe
    (clock : BudgetClock) (inReason holdingPartial : Bool) :
    BudgetClock :=
  if clock.done then
    if inReason && !clock.wasInReason then
      { BudgetClock.new clock.budget clock.grace with wasInReason := true }
    else
      { clock with wasInReason := inReason }
  else if clock.forcing then
    if !inReason then
      { clock with done := true, forcing := false, wasInReason := inReason }
    else
      { clock with wasInReason := inReason }
  else if inReason && clock.wasInReason then
    let counted := saturatingAdd clock.counted 1
    { clock with
      counted := counted
      forcing := decide (clock.budget ≤ counted) && !holdingPartial
      wasInReason := inReason }
  else if clock.wasInReason && !inReason then
    { clock with done := true, wasInReason := inReason }
  else
    { clock with wasInReason := inReason }

def BudgetClock.kind
    (clock : BudgetClock) (inReason holdingPartial : Bool) : ForceKind :=
  if clock.done || !inReason then
    .sample
  else if (clock.forcing || decide (clock.budget ≤ clock.counted)) &&
      !holdingPartial then
    .force
  else if clock.biasAt ≤ clock.counted then
    .bias
  else
    .sample

/-! ## What the clock knows -/

theorem saturatingAdd_one_toNat (count : UInt32) :
    (saturatingAdd count 1).toNat =
      min (count.toNat + 1) 4294967295 := by
  have bound := count.toNat_lt
  have one : (1 : UInt32).toNat = 1 := rfl
  have top : (4294967295 : UInt32).toNat = 4294967295 := rfl
  have size : UInt32.size = 4294967296 := rfl
  rw [saturatingAdd, one, size]
  split_ifs with fits
  · rw [UInt32.toNat_add, one]
    omega
  · rw [top]
    omega

/-- Observing keeps the limits of the clock. -/
@[simp]
theorem BudgetClock.observe_budget
    (clock : BudgetClock) (inReason holdingPartial : Bool) :
    (clock.observe inReason holdingPartial).budget = clock.budget := by
  unfold BudgetClock.observe
  split_ifs <;> rfl

/--
The clock has followed the tokens so far: `body` is the number of tokens of
the current block behind the one that opened it.
-/
structure BudgetClock.Counts
    (clock : BudgetClock) (inReason : Bool) (body : Nat) : Prop where
  was : clock.wasInReason = inReason
  outside : clock.done = true → inReason = false
  idle : inReason = false → clock.done = false → clock.counted = 0
  forced : clock.forcing = true →
    inReason = true ∧ clock.budget ≤ clock.counted
  inside : inReason = true →
    clock.counted.toNat = min body 4294967295 ∨
      clock.forcing = true

/-- The tokens of the block after one more token. -/
def nextBody (before after : Bool) (body : Nat) : Nat :=
  if before && after then body + 1 else 0

theorem BudgetClock.counts_new (budget grace : UInt32) :
    (BudgetClock.new budget grace).Counts false 0 where
  was := rfl
  outside done := by cases done
  idle _ _ := rfl
  forced forcing := by cases forcing
  inside inReason := by cases inReason

section Phases

variable {clock : BudgetClock} {before : Bool} {body : Nat}

/-- A clock that is done rests until the next block, then starts anew. -/
theorem BudgetClock.Counts.observe_of_done
    (counts : clock.Counts before body) (done : clock.done = true)
    (after holding : Bool) :
    (clock.observe after holding).Counts after
      (nextBody before after body) := by
  have out := counts.outside done
  have was := counts.was
  subst out
  cases after with
  | true =>
      have armed :
          clock.observe true holding =
            { BudgetClock.new clock.budget clock.grace with
              wasInReason := true } := by
        simp [BudgetClock.observe, done, was]
      rw [armed]
      exact
        { was := rfl
          outside := fun isDone => by cases isDone
          idle := fun impossible => by cases impossible
          forced := fun forcing => by cases forcing
          inside := fun _ => Or.inl rfl }
  | false =>
      have rests :
          clock.observe false holding =
            { clock with wasInReason := false } := by
        simp [BudgetClock.observe, done]
      rw [rests]
      exact
        { was := rfl
          outside := fun _ => rfl
          idle := fun _ notDone => by simp [done] at notDone
          forced := fun forcing => by cases (counts.forced forcing).1
          inside := fun impossible => by cases impossible }

/-- A clock that forces goes on forcing until the block is closed. -/
theorem BudgetClock.Counts.observe_of_forcing
    (counts : clock.Counts before body) (notDone : clock.done = false)
    (forcing : clock.forcing = true) (after holding : Bool) :
    (clock.observe after holding).Counts after
      (nextBody before after body) := by
  obtain ⟨-, spent⟩ := counts.forced forcing
  cases after with
  | true =>
      have holds :
          clock.observe true holding =
            { clock with wasInReason := true } := by
        simp [BudgetClock.observe, notDone, forcing]
      rw [holds]
      exact
        { was := rfl
          outside := fun isDone => by simp [notDone] at isDone
          idle := fun impossible => by cases impossible
          forced := fun _ => ⟨rfl, spent⟩
          inside := fun _ => Or.inr forcing }
  | false =>
      have closes :
          clock.observe false holding =
            { clock with
              done := true, forcing := false, wasInReason := false } := by
        simp [BudgetClock.observe, notDone, forcing]
      rw [closes]
      exact
        { was := rfl
          outside := fun _ => rfl
          idle := fun _ impossible => by cases impossible
          forced := fun impossible => by cases impossible
          inside := fun impossible => by cases impossible }

/-- Inside a block a clock counts, and starts to force at the budget. -/
theorem BudgetClock.Counts.observe_of_counting
    (counts : clock.Counts true body) (notDone : clock.done = false)
    (notForcing : clock.forcing = false) (after holding : Bool) :
    (clock.observe after holding).Counts after
      (nextBody true after body) := by
  have was := counts.was
  cases after with
  | true =>
      have one :
          clock.observe true holding =
            { clock with
              counted := saturatingAdd clock.counted 1
              forcing :=
                decide (clock.budget ≤ saturatingAdd clock.counted 1) &&
                  !holding
              wasInReason := true } := by
        simp [BudgetClock.observe, notDone, notForcing, was]
      rw [one]
      refine
        { was := rfl
          outside := fun isDone => by simp [notDone] at isDone
          idle := fun impossible => by cases impossible
          forced := ?_
          inside := ?_ }
      · intro forcing
        rw [Bool.and_eq_true, decide_eq_true_iff] at forcing
        exact ⟨rfl, forcing.1⟩
      · intro _
        left
        rcases counts.inside rfl with exact | forcing
        · rw [saturatingAdd_one_toNat, exact]
          simp only [nextBody, Bool.and_self, if_true]
          omega
        · simp [notForcing] at forcing
  | false =>
      have closes :
          clock.observe false holding =
            { clock with done := true, wasInReason := false } := by
        simp [BudgetClock.observe, notDone, notForcing, was]
      rw [closes]
      exact
        { was := rfl
          outside := fun _ => rfl
          idle := fun _ impossible => by cases impossible
          forced := fun forcing => by simp [notForcing] at forcing
          inside := fun impossible => by cases impossible }

/-- Outside a block a clock that is not done has counted nothing. -/
theorem BudgetClock.Counts.observe_of_outside
    (counts : clock.Counts false body) (notDone : clock.done = false)
    (notForcing : clock.forcing = false) (after holding : Bool) :
    (clock.observe after holding).Counts after
      (nextBody false after body) := by
  have was := counts.was
  have zero := counts.idle rfl notDone
  have waits :
      clock.observe after holding =
        { clock with wasInReason := after } := by
    simp [BudgetClock.observe, notDone, notForcing, was]
  rw [waits]
  exact
    { was := rfl
      outside := fun isDone => by simp [notDone] at isDone
      idle := fun _ _ => zero
      forced := fun forcing => by simp [notForcing] at forcing
      inside := fun _ => Or.inl (by rw [zero]; rfl) }

/-- The clock keeps following the tokens. -/
theorem BudgetClock.Counts.observe
    (counts : clock.Counts before body) (after holding : Bool) :
    (clock.observe after holding).Counts after
      (nextBody before after body) := by
  cases done : clock.done with
  | true => exact counts.observe_of_done done after holding
  | false =>
      cases forcing : clock.forcing with
      | true => exact counts.observe_of_forcing done forcing after holding
      | false =>
          cases before with
          | true =>
              exact counts.observe_of_counting done forcing after holding
          | false =>
              exact counts.observe_of_outside done forcing after holding

end Phases

theorem BudgetClock.Counts.not_done
    {clock : BudgetClock} {body : Nat}
    (counts : clock.Counts true body) :
    clock.done = false := by
  cases done : clock.done with
  | false => rfl
  | true => cases counts.outside done

/-- A budget is spent for the clock once it is spent for the block. -/
theorem BudgetClock.Counts.spent
    {clock : BudgetClock} {body : Nat}
    (counts : clock.Counts true body)
    (enough : clock.budget.toNat ≤ body) :
    clock.budget ≤ clock.counted := by
  rcases counts.inside rfl with exact | forcing
  · have bound := clock.budget.toNat_lt
    rw [UInt32.le_iff_toNat_le, exact]
    omega
  · exact (counts.forced forcing).2

/-- A spent budget stays spent to the end of the block. -/
theorem BudgetClock.Counts.spent_observe
    {clock : BudgetClock} {body : Nat}
    (counts : clock.Counts true body)
    (spent : clock.budget ≤ clock.counted) (holding : Bool) :
    (clock.observe true holding).budget ≤
      (clock.observe true holding).counted := by
  have notDone := counts.not_done
  cases forcing : clock.forcing with
  | true => simpa [BudgetClock.observe, notDone, forcing] using spent
  | false =>
      simp only [BudgetClock.observe, notDone, forcing, counts.was,
        Bool.false_eq_true, if_false, Bool.and_self, if_true]
      have bound := clock.counted.toNat_lt
      rw [UInt32.le_iff_toNat_le] at spent ⊢
      rw [saturatingAdd_one_toNat]
      omega

/-- In a spent block the clock forces exactly when no tag is half read. -/
theorem BudgetClock.Counts.kind_force_iff
    {clock : BudgetClock} {inReason : Bool} {body : Nat}
    (counts : clock.Counts inReason body) (holding : Bool) :
    clock.kind inReason holding = .force ↔
      inReason = true ∧ clock.budget ≤ clock.counted ∧
        holding = false := by
  cases inReason with
  | false => simp [BudgetClock.kind]
  | true =>
      have notDone := counts.not_done
      have spentOf :
          clock.forcing = true → clock.budget ≤ clock.counted :=
        fun forcing => (counts.forced forcing).2
      by_cases spent : clock.budget ≤ clock.counted
      · cases holding with
        | false => simp [BudgetClock.kind, notDone, spent]
        | true =>
            simp only [BudgetClock.kind, notDone, Bool.not_true,
              Bool.or_self, Bool.false_eq_true, if_false, Bool.and_false,
              reduceCtorEq, and_false, iff_false]
            split_ifs <;> simp
      · have notForcing : clock.forcing = false := by
          cases forcing : clock.forcing with
          | false => rfl
          | true => exact (spent (spentOf forcing)).elim
        simp only [BudgetClock.kind, notDone, notForcing, spent,
          Bool.not_true, Bool.or_self, Bool.false_eq_true, if_false,
          decide_false, Bool.false_and, false_and, and_false, iff_false]
        split_ifs <;> simp

end Runa.Core.Think
