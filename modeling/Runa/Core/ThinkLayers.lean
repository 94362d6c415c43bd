import Runa.Core.Think
import Runa.Fallible.Steps
import Runa.Layered.Sources

/-!
# Layers of thinking settings

Every layer overlays what it sets: a mode, whether reasoning is shown, and the
grace of a budget.  The configuration has no place for a grace while its mode
is not a budget, so a grace that is set then, or before a layer that takes the
budget away, is forgotten.  `composes_iff` says when this does not show.
-/

namespace Runa.Core.ThinkLayers

open Runa.Core.Think
open Runa.Fallible.Steps
open Runa.Layered.Sources
open Runa.Stream.Utf8

/-! ## What the layers say -/

/-- A mode without its grace. -/
inductive Choice where
  | off
  | on
  | budget (tokens : UInt32)
  | effort (level : Effort)
deriving DecidableEq, Repr

/-- What a layer makes of the mode: a budget or an effort comes before on and
off. -/
def choice (layer : ThinkOverrides) : Option Choice :=
  ((layer.budget.map Choice.budget).or (layer.effort.map Choice.effort)).or
    (layer.think.map fun on => if on then .on else .off)

def Choice.mode (grace : UInt32) : Choice → ThinkMode
  | .off => .off
  | .on => .on
  | .budget tokens => .budget tokens grace
  | .effort level => .effort level

def Choice.IsBudget : Choice → Prop
  | .budget _ => True
  | _ => False

instance : DecidablePred Choice.IsBudget := fun choice => by
  cases choice <;> unfold Choice.IsBudget <;> infer_instance

/-- The mode of the last layer that sets one, else off. -/
def chosen (layers : List ThinkOverrides) : Choice :=
  (lastSome (layers.map choice)).getD .off

/-- The last grace that is set. -/
def lastGrace (layers : List ThinkOverrides) : Option UInt32 :=
  lastSome (layers.map ThinkOverrides.grace)

/-- Whether the last layer that says so shows reasoning. -/
def shown (layers : List ThinkOverrides) : Bool :=
  (lastSome (layers.map ThinkOverrides.show)).getD false

/-- Every setting is that of the last layer that makes it. -/
structure Composes (layers : List ThinkOverrides) (config : ThinkConfig) :
    Prop where
  shows : config.show = shown layers
  mode : config.mode =
    (chosen layers).mode ((lastGrace layers).getD defaultGrace)

/-- The last grace that is set is the default one, or from there on every
layer leaves the mode a budget. -/
def Lasting (layers : List ThinkOverrides) : Prop :=
  ∀ front layer back grace, layers = front ++ layer :: back →
    layer.grace = some grace → (∀ later ∈ back, later.grace = none) →
      grace = defaultGrace ∨
        ∀ between, between <+: back →
          (chosen (front ++ layer :: between)).IsBudget

/-- If the layers come to a budget, no grace was lost on the way. -/
def KeepsGrace (layers : List ThinkOverrides) : Prop :=
  (chosen layers).IsBudget → Lasting layers

/-- The layers one after the other, on the default. -/
def applyAll (layers : List ThinkOverrides) : Except Text ThinkConfig :=
  layers.foldlM ThinkConfig.apply .default

/-! ## One layer -/

section

variable {config next : ThinkConfig} {layer : ThinkOverrides}

/-- A layer that is accepted. -/
theorem eq_of_apply (ok : config.apply layer = .ok next) :
    next.show = layer.show.getD config.show ∧
      ∀ before grace, config.mode = Choice.mode grace before →
        (¬ before.IsBudget → grace = defaultGrace) →
          next.mode = ((choice layer).getD before).mode
            (layer.grace.getD grace) := by
  rw [ThinkConfig.apply] at ok
  split at ok
  · cases ok
  · split at ok
    · cases ok
    · cases ok
      refine ⟨rfl, ?_⟩
      intro before grace mode plain
      have kept : config.mode.grace = grace := by
        rw [mode]
        cases before with
        | budget tokens => rfl
        | off => exact (plain not_false).symm
        | on => exact (plain not_false).symm
        | effort level => exact (plain not_false).symm
      rw [kept, mode, choice]
      cases layer.budget with
      | some tokens => rfl
      | none =>
          cases layer.effort with
          | some effort => rfl
          | none =>
              cases layer.think with
              | some on => cases on <;> rfl
              | none => cases before <;> rfl

end

/-! ## All layers -/

theorem chosen_concat (layers : List ThinkOverrides)
    (layer : ThinkOverrides) :
    chosen (layers ++ [layer]) = (choice layer).getD (chosen layers) := by
  rw [chosen, lastSome_map_concat]
  cases choice layer <;> rfl

theorem lastGrace_concat (layers : List ThinkOverrides)
    (layer : ThinkOverrides) :
    lastGrace (layers ++ [layer]) = layer.grace.or (lastGrace layers) := by
  rw [lastGrace, lastSome_map_concat, lastGrace]

theorem shown_concat (layers : List ThinkOverrides)
    (layer : ThinkOverrides) :
    shown (layers ++ [layer]) = layer.show.getD (shown layers) := by
  rw [shown, lastSome_map_concat]
  cases layer.show <;> rfl

/-! ## Where a grace is lost -/

/-- A layer that sets a grace under a budget is the last to set one. -/
theorem lasting_concat_some {layers : List ThinkOverrides}
    {layer : ThinkOverrides} {grace : UInt32}
    (sets : layer.grace = some grace)
    (budget : (chosen (layers ++ [layer])).IsBudget) :
    Lasting (layers ++ [layer]) := by
  intro front other back given split found silent
  rcases List.eq_nil_or_concat back with rfl | ⟨back, last, rfl⟩
  · right
    intro between begins
    rw [List.prefix_nil.mp begins, ← split]
    exact budget
  · rw [List.concat_eq_append, ← List.cons_append, ← List.append_assoc]
      at split
    have same := List.append_inj_right' split rfl
    rw [List.singleton_inj] at same
    have none := silent last (by simp)
    rw [← same, sets] at none
    cases none

/-- Where a layer sets no grace, the last one to do so is among the others. -/
theorem lasting_concat_none {layers : List ThinkOverrides}
    {layer : ThinkOverrides} (silent : layer.grace = none)
    (budget : (chosen (layers ++ [layer])).IsBudget) :
    Lasting (layers ++ [layer]) ↔ Lasting layers := by
  constructor
  · intro lasting front other back grace split sets later
    have whole : layers ++ [layer] = front ++ other :: (back ++ [layer]) := by
      rw [split, List.append_assoc, List.cons_append]
    have still : ∀ other ∈ back ++ [layer], other.grace = none :=
      List.forall_mem_append.mpr ⟨later, List.forall_mem_singleton.mpr silent⟩
    rcases lasting front other (back ++ [layer]) grace whole sets still with
      same | all
    · exact Or.inl same
    · exact Or.inr fun between begins =>
        all between (begins.trans (List.prefix_append back _))
  · intro lasting front other back grace split sets later
    rcases List.eq_nil_or_concat back with rfl | ⟨back, last, rfl⟩
    · have same := List.append_inj_right' split rfl
      rw [List.singleton_inj] at same
      rw [← same, silent] at sets
      cases sets
    · rw [List.concat_eq_append] at later ⊢
      rw [List.concat_eq_append, ← List.cons_append, ← List.append_assoc]
        at split
      rcases lasting front other back grace (List.append_inj_left' split rfl)
        sets fun other member => later other (List.mem_append_left _ member)
        with same | all
      · exact Or.inl same
      · right
        intro between begins
        rcases List.prefix_concat_iff.mp begins with rfl | inside
        · rw [← List.cons_append, ← List.append_assoc, ← split]
          exact budget
        · exact all between inside

/-- The last grace, by the layer that sets it. -/
theorem lastGrace_eq_some_iff {layers : List ThinkOverrides}
    {grace : UInt32} :
    lastGrace layers = some grace ↔
      ∃ front layer back, layers = front ++ layer :: back ∧
        layer.grace = some grace ∧ ∀ later ∈ back, later.grace = none := by
  constructor
  · intro last
    induction layers using List.reverseRecOn with
    | nil => cases last
    | append_singleton layers layer induction =>
        rw [lastGrace_concat, Option.or_eq_some_iff] at last
        rcases last with here | ⟨silent, there⟩
        · exact ⟨layers, layer, [], rfl, here, List.forall_mem_nil _⟩
        · rcases induction there with ⟨front, other, back, rfl, sets, later⟩
          refine ⟨front, other, back ++ [layer], ?_, sets, ?_⟩
          · rw [List.append_assoc, List.cons_append]
          · exact List.forall_mem_append.mpr
              ⟨later, List.forall_mem_singleton.mpr silent⟩
  · rintro ⟨front, layer, back, rfl, sets, later⟩
    induction back using List.reverseRecOn with
    | nil => rw [lastGrace_concat, sets, Option.some_or]
    | append_singleton back last induction =>
        rcases List.forall_mem_append.mp later with ⟨others, alone⟩
        rw [← List.cons_append, ← List.append_assoc, lastGrace_concat,
          List.forall_mem_singleton.mp alone, Option.none_or]
        exact induction others

/-- Behind layers that come to no budget, only the default grace lasts. -/
theorem lasting_iff_of_not_budget {layers : List ThinkOverrides}
    (plain : ¬ (chosen layers).IsBudget) :
    Lasting layers ↔ (lastGrace layers).getD defaultGrace = defaultGrace := by
  constructor
  · intro lasting
    cases last : lastGrace layers with
    | none => rfl
    | some grace =>
        rcases lastGrace_eq_some_iff.mp last with
          ⟨front, layer, back, split, sets, later⟩
        rcases lasting front layer back grace split sets later with
          same | all
        · exact same
        · have budget := all back List.prefix_rfl
          rw [← split] at budget
          exact absurd budget plain
  · intro same front layer back grace split sets later
    rw [lastGrace_eq_some_iff.mpr ⟨front, layer, back, split, sets, later⟩]
      at same
    exact Or.inl same

/-! ## The configuration behind some layers -/

/-- The configuration behind some layers, with the grace it holds or would
start from. -/
structure Behind (layers : List ThinkOverrides) (config : ThinkConfig)
    (grace : UInt32) : Prop where
  shows : config.show = shown layers
  mode : config.mode = (chosen layers).mode grace
  plain : ¬ (chosen layers).IsBudget → grace = defaultGrace
  keeps : (chosen layers).IsBudget →
    (grace = (lastGrace layers).getD defaultGrace ↔ Lasting layers)

theorem behind_nil : Behind [] .default defaultGrace where
  shows := rfl
  mode := rfl
  plain _ := rfl
  keeps budget := budget.elim

theorem Choice.mode_of_plain {choice : Choice} (plain : ¬ choice.IsBudget)
    (grace other : UInt32) : choice.mode grace = choice.mode other := by
  cases choice with
  | budget tokens => exact absurd True.intro plain
  | off => rfl
  | on => rfl
  | effort level => rfl

section

variable {layers : List ThinkOverrides} {config next : ThinkConfig}
  {layer : ThinkOverrides} {grace : UInt32}

/-- One more layer. -/
theorem Behind.apply (behind : Behind layers config grace)
    (ok : config.apply layer = .ok next) :
    ∃ grace', Behind (layers ++ [layer]) next grace' := by
  rcases eq_of_apply ok with ⟨shows, mode⟩
  have mode := mode (chosen layers) grace behind.mode behind.plain
  rw [behind.shows, ← shown_concat] at shows
  rw [← chosen_concat] at mode
  by_cases budget : (chosen (layers ++ [layer])).IsBudget
  · use layer.grace.getD grace
    refine ⟨shows, mode, fun plain => absurd budget plain, fun _ => ?_⟩
    rw [lastGrace_concat]
    cases sets : layer.grace with
    | some given => exact iff_of_true rfl (lasting_concat_some sets budget)
    | none =>
        rw [Option.getD_none, Option.none_or,
          lasting_concat_none sets budget]
        by_cases before : (chosen layers).IsBudget
        · exact behind.keeps before
        · rw [lasting_iff_of_not_budget before, behind.plain before]
          exact eq_comm
  · use defaultGrace
    refine ⟨shows, ?_, fun _ => rfl, fun some => absurd some budget⟩
    rw [mode]
    exact Choice.mode_of_plain budget _ _

/-- All layers. -/
theorem behind_of_applyAll (ok : applyAll layers = .ok config) :
    ∃ grace, Behind layers config grace := by
  refine foldlM_run (fun front config => ∃ grace, Behind front config grace)
    ?_ ⟨defaultGrace, behind_nil⟩ ok
  rintro front layer config next ⟨grace, behind⟩ ok
  exact behind.apply ok

/-- Layers that are accepted set what the last of them sets, except for a
grace that is set where the mode is not a budget, or before it ceases to be
one. -/
theorem composes_iff (ok : applyAll layers = .ok config) :
    Composes layers config ↔ KeepsGrace layers := by
  rcases behind_of_applyAll ok with ⟨grace, behind⟩
  constructor
  · intro composes budget
    rw [← behind.keeps budget]
    have same := behind.mode.symm.trans composes.mode
    cases which : chosen layers with
    | budget tokens =>
        rw [which] at same
        exact (ThinkMode.budget.inj same).2
    | off => rw [which] at budget; exact budget.elim
    | on => rw [which] at budget; exact budget.elim
    | effort level => rw [which] at budget; exact budget.elim
  · intro keeps
    refine ⟨behind.shows, ?_⟩
    by_cases budget : (chosen layers).IsBudget
    · rw [behind.mode, ← (behind.keeps budget).mpr (keeps budget)]
    · rw [behind.mode]
      exact Choice.mode_of_plain budget _ _

end

/-- A layer that sets a grace, and nothing else. -/
def graceLayer (grace : UInt32) : ThinkOverrides :=
  { ThinkOverrides.default with grace := some grace }

def budgetLayer (tokens : UInt32) : ThinkOverrides :=
  { ThinkOverrides.default with budget := some tokens }

/-- The grace comes with the budget or behind it. -/
theorem composes_budget_grace :
    Composes [budgetLayer 2048, graceLayer 128]
      ⟨.budget 2048 128, false⟩ := by
  refine (composes_iff (by rfl)).mpr fun budget => ?_
  have lasting : Lasting ([budgetLayer 2048] ++ [graceLayer 128]) :=
    lasting_concat_some rfl budget
  exact lasting

/-- A grace in front of the budget is gone. -/
theorem not_composes_grace_budget :
    applyAll [graceLayer 128, budgetLayer 2048] =
        .ok ⟨.budget 2048 64, false⟩ ∧
      ¬ Composes [graceLayer 128, budgetLayer 2048]
        ⟨.budget 2048 64, false⟩ := by
  constructor
  · rfl
  · intro composes
    exact absurd composes.mode (by decide)

end Runa.Core.ThinkLayers
