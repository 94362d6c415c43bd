import Runa.Memory.Manager

/-!
# The ceiling of the memory manager

A growth is checked behind one lock and made behind another, so what was
checked may be old when it is made.  Memory stays between its bounds in a run
exactly if every growth still fits when it is made, or wraps round to
something above the lower bound.
-/

namespace Runa.Memory.Ceiling

open Runa.Memory.Manager
open Runa.Concurrent.Interleaving

variable {ι : Type}

/-- The smaller of what was resident first and of the weights. -/
def lowest (first : FakeBackend) : UInt64 :=
  min first.rssMib first.modelFloorMib

/-- What a refused growth leaves as it was. -/
structure Kept (before after : Shared) : Prop where
  rss : after.backend.rssMib = before.backend.rssMib
  state : after.state = before.state
  granted : after.grantedGrowthMib = before.grantedGrowthMib

/-- Memory stays between its bounds, and neither the first action of a growth
nor the one that refuses it changes what it must not. -/
structure Sound (setup : Setup) (first : FakeBackend)
    (action : Action ι Shared Held) : Prop where
  ceiling : (act setup action.held action.shared).1.backend.rssMib ≤
    setup.fitCeilingMib
  floor : lowest first ≤
    (act setup action.held action.shared).1.backend.rssMib
  touched : ∀ quiet demandMib now,
    action.held = .growTouch quiet demandMib now →
      Kept action.shared (act setup action.held action.shared).1
  refused : ∀ error,
    (act setup action.held action.shared).2 =
        .done (.grown (.error error)) →
      Kept action.shared (act setup action.held action.shared).1

/-- A growth fits on top of what is resident when it is made, or the sum
wraps round to no less than the lower bound. -/
def Fits (setup : Setup) (first : FakeBackend)
    (action : Action ι Shared Held) : Prop :=
  ∀ quiet demandMib, action.held = .growBackend quiet demandMib →
    let sum := action.shared.backend.rssMib.toNat + demandMib.toNat
    sum ≤ setup.fitCeilingMib.toNat ∨
      (lowest first).toNat + 2 ^ 64 ≤ sum

/-! ## One action -/

/-- Two locks change what is resident. -/
theorem act_backend (setup : Setup) (held : Held) (shared : Shared) :
    (act setup held shared).1.backend =
      match held with
      | .shrinkBackend _ => shared.backend.shrinkTo setup.policy.floorMib
      | .growBackend _ demandMib => shared.backend.grow demandMib
      | _ => shared.backend := by
  cases held with
  | elapsed now idleAt =>
      dsimp only [act]
      split <;> rfl
  | growCheck quiet demandMib =>
      dsimp only [act]
      split <;> rfl
  | _ => rfl

theorem kept_of_refused {setup : Setup} {held : Held} {shared : Shared}
    {error : MemoryError}
    (refused : (act setup held shared).2 = .done (.grown (.error error))) :
    Kept shared (act setup held shared).1 := by
  cases held with
  | growCheck quiet demandMib =>
      dsimp only [act]
      split <;> exact ⟨rfl, rfl, rfl⟩
  | growState quiet => cases quiet <;> cases refused
  | elapsed now idleAt =>
      dsimp only [act]
      split <;> exact ⟨rfl, rfl, rfl⟩
  | shrinkGranted idleAt => cases idleAt <;> cases refused
  | touch now => exact ⟨rfl, rfl, rfl⟩
  | usageState rss => exact ⟨rfl, rfl, rfl⟩
  | shrinkActivity idleAt => exact ⟨rfl, rfl, rfl⟩
  | _ => cases refused

/-- What is resident lies between its bounds. -/
structure Bounded (setup : Setup) (first : FakeBackend) (shared : Shared) :
    Prop where
  weights : shared.backend.modelFloorMib = first.modelFloorMib
  ceiling : shared.backend.rssMib ≤ setup.fitCeilingMib
  floor : lowest first ≤ shared.backend.rssMib

theorem toNat_min (one other : UInt64) :
    (min one other).toNat = min one.toNat other.toNat := by
  show (if one ≤ other then one else other).toNat = _
  split
  · next below => exact (Nat.min_eq_left below).symm
  · next above => exact (Nat.min_eq_right (Nat.le_of_not_le above)).symm

theorem toNat_max (one other : UInt64) :
    (max one other).toNat = max one.toNat other.toNat := by
  show (if one ≤ other then other else one).toNat = _
  split
  · next below => exact (Nat.max_eq_right below).symm
  · next above => exact (Nat.max_eq_left (Nat.le_of_not_le above)).symm

section

variable {setup : Setup} {first : FakeBackend} {shared : Shared}

theorem Bounded.shrink (bounded : Bounded setup first shared)
    (targetMib : UInt64) :
    (shared.backend.shrinkTo targetMib).rssMib ≤ setup.fitCeilingMib ∧
      lowest first ≤ (shared.backend.shrinkTo targetMib).rssMib := by
  have ceiling := UInt64.le_iff_toNat_le.mp bounded.ceiling
  have floor := UInt64.le_iff_toNat_le.mp bounded.floor
  have weights := congrArg UInt64.toNat bounded.weights
  rw [UInt64.le_iff_toNat_le, UInt64.le_iff_toNat_le]
  simp only [FakeBackend.shrinkTo, lowest, toNat_min, toNat_max]
    at floor ⊢
  omega

theorem Bounded.grow_iff (bounded : Bounded setup first shared)
    (demandMib : UInt64) :
    ((shared.backend.grow demandMib).rssMib ≤ setup.fitCeilingMib ∧
        lowest first ≤ (shared.backend.grow demandMib).rssMib) ↔
      shared.backend.rssMib.toNat + demandMib.toNat ≤
          setup.fitCeilingMib.toNat ∨
        (lowest first).toNat + 2 ^ 64 ≤
          shared.backend.rssMib.toNat + demandMib.toNat := by
  rw [UInt64.le_iff_toNat_le, UInt64.le_iff_toNat_le, FakeBackend.grow,
    UInt64.toNat_add]
  have ceiling := UInt64.le_iff_toNat_le.mp bounded.ceiling
  have floor := UInt64.le_iff_toNat_le.mp bounded.floor
  have top := setup.fitCeilingMib.toNat_lt
  have demand := demandMib.toNat_lt
  omega

theorem Bounded.act {held : Held}
    (bounded : Bounded setup first shared)
    (ceiling : (Manager.act setup held shared).1.backend.rssMib ≤
      setup.fitCeilingMib)
    (floor : lowest first ≤
      (Manager.act setup held shared).1.backend.rssMib) :
    Bounded setup first (Manager.act setup held shared).1 := by
  refine ⟨?_, ceiling, floor⟩
  rw [act_backend]
  cases held <;> exact bounded.weights

/-- An action is sound exactly if its growth fits. -/
theorem sound_iff {action : Action ι Shared Held}
    (bounded : Bounded setup first action.shared) :
    Sound setup first action ↔ Fits setup first action := by
  obtain ⟨thread, held, shared⟩ := action
  have growths : Fits setup first (⟨thread, held, shared⟩ :
      Action ι Shared Held) ↔
        (Manager.act setup held shared).1.backend.rssMib ≤
            setup.fitCeilingMib ∧
          lowest first ≤
            (Manager.act setup held shared).1.backend.rssMib := by
    rw [act_backend]
    cases held with
    | growBackend quiet demandMib =>
        rw [bounded.grow_iff, Fits]
        constructor
        · exact fun fits => fits quiet demandMib rfl
        · intro fits quiet' demandMib' same
          cases same
          exact fits
    | shrinkBackend idleAt =>
        refine iff_of_true ?_ (bounded.shrink _)
        intro quiet demandMib same
        cases same
    | _ =>
        refine iff_of_true ?_ ⟨bounded.ceiling, bounded.floor⟩
        intro quiet demandMib same
        cases same
  rw [growths]
  constructor
  · exact fun sound => ⟨sound.ceiling, sound.floor⟩
  · rintro ⟨ceiling, floor⟩
    refine ⟨ceiling, floor, ?_, fun error => kept_of_refused⟩
    rintro quiet demandMib now rfl
    exact ⟨rfl, rfl, rfl⟩

end

/-! ## Runs -/

/-- The bounds are handed on by every action whose growth fits. -/
theorem judges (setup : Setup) (first : FakeBackend) :
    Judges (memoryManager setup) (fun _ => True)
      (fun _ => Sound (ι := ι) setup first) (Fits setup first)
      (fun _ => Bounded setup first) (fun _ _ _ => True) := by
  constructor
  · exact fun _ _ _ _ _ => trivial
  · exact fun _ action bounded _ => sound_iff bounded
  · intro _ action bounded _ fits
    have sound := (sound_iff bounded).mpr fits
    exact ⟨bounded.act sound.ceiling sound.floor, fun _ _ => trivial,
      fun _ _ => trivial⟩

section

variable [DecidableEq ι] (setup : Setup) (first : FakeBackend) (now : Nat)
  (events : List (Event ι Call))

/-- All actions of a run of a new manager are sound. -/
def SoundRun : Prop :=
  ∀ action ∈
      actions (memoryManager setup) (Config.idle (new first now)) events,
    Sound setup first action

/-- All growths of a run fit when they are made. -/
def FittingRun : Prop :=
  ∀ action ∈
      actions (memoryManager setup) (Config.idle (new first now)) events,
    Fits setup first action

end

/-- In a run from a state below the ceiling, memory stays between its bounds
and what is refused changes nothing, exactly if every growth fits when it is
made. -/
theorem soundRun_iff [DecidableEq ι] {setup : Setup} {first : FakeBackend}
    (below : first.rssMib ≤ setup.fitCeilingMib) (now : Nat)
    (events : List (Event ι Call)) :
    SoundRun setup first now events ↔
      FittingRun setup first now events := by
  rw [SoundRun, ← throughout_const _ []]
  apply (judges setup first).throughout_iff _ fun _ _ _ => trivial
  apply holds_idle
  refine ⟨rfl, below, ?_⟩
  rw [UInt64.le_iff_toNat_le, lowest, toNat_min]
  exact Nat.min_le_left _ _

/-- A ceiling of 1000 MiB. -/
def smallSetup : Setup where
  policy := .default
  fitCeilingMib := 1000

def smallBackend : FakeBackend where
  rssMib := 500
  modelFloorMib := 200

/-- A growth, and an idle shrink behind it. -/
def oneAfterOther : List (Event Bool Call) :=
  [.start false (.growFor 300 1), .advance false, .advance false,
    .advance false, .advance false, .start true (.onIdle 2),
    .advance true, .advance true]

theorem actions_oneAfterOther :
    actions (memoryManager smallSetup) (Config.idle (new smallBackend 0))
        oneAfterOther =
      [⟨false, .growTouch false 300 1, ⟨⟨500, 200⟩, .normal, 0, 0⟩⟩,
        ⟨false, .growCheck false 300, ⟨⟨500, 200⟩, .normal, 0, 1⟩⟩,
        ⟨false, .growBackend false 300, ⟨⟨500, 200⟩, .normal, 0, 1⟩⟩,
        ⟨false, .growGranted false 300, ⟨⟨800, 200⟩, .normal, 0, 1⟩⟩,
        ⟨true, .shrinkBefore (some 2), ⟨⟨800, 200⟩, .normal, 300, 1⟩⟩,
        ⟨true, .shrinkBackend (some 2),
          ⟨⟨800, 200⟩, .normal, 300, 1⟩⟩] := by
  decide +kernel

theorem soundRun_oneAfterOther :
    SoundRun smallSetup smallBackend 0 oneAfterOther := by
  apply (soundRun_iff (by decide) 0 oneAfterOther).mpr
  rw [FittingRun, actions_oneAfterOther]
  simp only [List.forall_mem_cons]
  refine ⟨by simp [Fits], by simp [Fits], ?_, by simp [Fits],
    by simp [Fits], by simp [Fits], nofun⟩
  intro quiet demandMib same
  cases same
  exact Or.inl (by decide)

/-- Two growths are checked before either is made. -/
def bothChecked : List (Event Bool Call) :=
  [.start false (.growFor 300 1), .start true (.growFor 300 2),
    .advance false, .advance false, .advance true, .advance true,
    .advance false, .advance true]

theorem actions_bothChecked :
    actions (memoryManager smallSetup) (Config.idle (new smallBackend 0))
        bothChecked =
      [⟨false, .growTouch false 300 1, ⟨⟨500, 200⟩, .normal, 0, 0⟩⟩,
        ⟨false, .growCheck false 300, ⟨⟨500, 200⟩, .normal, 0, 1⟩⟩,
        ⟨true, .growTouch false 300 2, ⟨⟨500, 200⟩, .normal, 0, 1⟩⟩,
        ⟨true, .growCheck false 300, ⟨⟨500, 200⟩, .normal, 0, 2⟩⟩,
        ⟨false, .growBackend false 300, ⟨⟨500, 200⟩, .normal, 0, 2⟩⟩,
        ⟨true, .growBackend false 300, ⟨⟨800, 200⟩, .normal, 0, 2⟩⟩] := by
  decide +kernel

/-- From 500 MiB to 1100, under a ceiling of 1000. -/
theorem not_soundRun_bothChecked :
    smallBackend.rssMib ≤ smallSetup.fitCeilingMib ∧
      (run (memoryManager smallSetup) (Config.idle (new smallBackend 0))
        bothChecked).shared.backend.rssMib = 1100 ∧
      ¬ SoundRun smallSetup smallBackend 0 bothChecked := by
  refine ⟨by decide, by decide +kernel, fun sound => ?_⟩
  rw [SoundRun, actions_bothChecked] at sound
  have last := sound
    ⟨true, .growBackend false 300, ⟨⟨800, 200⟩, .normal, 0, 2⟩⟩
    (by simp)
  exact absurd last.ceiling (by decide +kernel)

end Runa.Memory.Ceiling
