import Runa.Fit.CheckFit

/-!
# More memory

What becomes of a plan and of a verdict when there is more memory, or less
is set aside.  A plan only gets better.  A verdict can get worse in one way:
a larger budget packs other tensors, and so may leave behind a tensor of the
layer that all layers are judged by.
-/

namespace Runa.Fit.MoreMemory

open Runa.Stream.Utf8
open Runa.Word.Checked
open Runa.Packing
open Runa.Fit.GgmlTypes
open Runa.Fit.Estimate
open Runa.Fit.Planner
open Runa.Fit.CheckFit

/-- The second configuration leaves no less room. -/
structure Roomier (config config' : PlannerConfig) : Prop where
  vram : config.vramBytes ≤ config'.vramBytes
  ram : config.ramBytes ≤ config'.ramBytes
  margin : config'.vramMargin ≤ config.vramMargin
  mmproj : config'.mmprojBytes ≤ config.mmprojBytes
  lora : config'.loraBytes ≤ config.loraBytes
  encoder : config'.encoderComputeBytes ≤ config.encoderComputeBytes
  nUbatch : config'.nUbatch = config.nUbatch
  kvType : config'.kvType = config.kvType
  ctxLen : config'.ctxLen = config.ctxLen

section Plans

variable {desc : Descriptor} {config config' : PlannerConfig}
variable {compute kv : Nat}

theorem Roomier.reserved (roomier : Roomier config config') :
    config'.reserved compute kv ≤ config.reserved compute kv := by
  have mmproj := roomier.mmproj
  have lora := roomier.lora
  have encoder := roomier.encoder
  simp only [PlannerConfig.reserved]
  omega

theorem Roomier.weightBudget (roomier : Roomier config config') :
    config.weightBudget (config.reserved compute kv) ≤
      config'.weightBudget (config'.reserved compute kv) := by
  have vram := roomier.vram
  have margin := roomier.margin
  have reserved := @Roomier.reserved _ _ compute kv roomier
  simp only [PlannerConfig.weightBudget]
  omega

theorem plan_gpu_mono (roomier : Roomier config config') :
    (plan desc config compute kv).gpuWeightBytes ≤
      (plan desc config' compute kv).gpuWeightBytes :=
  Greedy.taken_mono (Nat.zero_le _) roomier.weightBudget

theorem plan_cpu_anti (roomier : Roomier config config') :
    (plan desc config' compute kv).cpuWeightBytes ≤
      (plan desc config compute kv).cpuWeightBytes := by
  have total :=
    @packing_total desc (config.weightBudget (config.reserved compute kv))
  have total' :=
    @packing_total desc
      (config'.weightBudget (config'.reserved compute kv))
  have gpu := @plan_gpu_mono desc _ _ compute kv roomier
  simp only [plan] at gpu ⊢
  omega

theorem plan_all_mono (roomier : Roomier config config')
    (all : (plan desc config compute kv).allOnGpu = true) :
    (plan desc config' compute kv).allOnGpu = true := by
  rw [plan_allOnGpu_iff] at all ⊢
  exact all.trans roomier.weightBudget

/-- Weights on the GPU fit it; so only RAM has to be compared. -/
theorem plan_fits_mono (roomier : Roomier config config')
    (fits : (plan desc config compute kv).fits = true) :
    (plan desc config' compute kv).fits = true := by
  have gpu := @plan_gpu_mono desc _ _ compute kv roomier
  have cpu := @plan_cpu_anti desc _ _ compute kv roomier
  have reserved := @Roomier.reserved _ _ compute kv roomier
  have ram := roomier.ram
  have within :
      (plan desc config' compute kv).gpuWeightBytes ≤
        config'.weightBudget (config'.reserved compute kv) :=
    packing_within
  rw [PlannerConfig.weightBudget] at within
  rw [plan_fits_iff] at fits ⊢
  constructor
  · omega
  · split_ifs at fits ⊢ with none none' none'
    · omega
    · omega
    · omega
    · omega

end Plans

/-- A plan with more room is no worse. -/
theorem planPlacement_mono
    (floats : Floats) (desc : Descriptor) (config config' : PlannerConfig)
    (result result' : PlacementPlan)
    (roomier : Roomier config config')
    (planned : planPlacement floats desc config = .ok result)
    (planned' : planPlacement floats desc config' = .ok result') :
    result.gpuWeightBytes ≤ result'.gpuWeightBytes ∧
      result'.cpuWeightBytes ≤ result.cpuWeightBytes ∧
      (result.fits = true → result'.fits = true) ∧
      (result.allOnGpu = true → result'.allOnGpu = true) := by
  obtain ⟨compute, kv, computed, estimated, rfl⟩ := planPlacement_eq planned
  obtain ⟨compute', kv', computed', estimated', rfl⟩ :=
    planPlacement_eq planned'
  rw [roomier.nUbatch, computed, Except.ok.injEq] at computed'
  rw [roomier.ctxLen, roomier.kvType, estimated,
    Except.ok.injEq] at estimated'
  subst computed' estimated'
  exact
    ⟨plan_gpu_mono roomier, plan_cpu_anti roomier, plan_fits_mono roomier,
      plan_all_mono roomier⟩

theorem planPlacement_mono_small :
    planPlacement .exact smallModel (smallConfig 5000) =
        .ok (plan smallModel (smallConfig 5000) 1360 4096) ∧
      (plan smallModel (smallConfig 5000) 1360 4096).gpuWeightBytes ≤
        (plan smallModel { smallConfig 5000 with vramBytes := 20000 } 1360
          4096).gpuWeightBytes :=
  ⟨by decide +kernel,
    (planPlacement_mono .exact smallModel (smallConfig 5000)
      { smallConfig 5000 with vramBytes := 20000 } _ _
      { vram := by decide
        ram := le_refl _
        margin := le_refl _
        mmproj := le_refl _
        lora := le_refl _
        encoder := le_refl _
        nUbatch := rfl
        kvType := rfl
        ctxLen := rfl }
      (by decide +kernel) (by decide +kernel)).1⟩

/-! ## The verdict -/

/-- How good a verdict is. -/
def rank : Verdict → Nat
  | .noFit => 0
  | .cpu => 1
  | .hybrid _ _ => 2
  | .gpu => 3

variable {Hw : Type}

section Verdicts

variable {desc : Descriptor} {config config' : PlannerConfig}
variable {compute kv compute' kv' : Nat} {overflow : Bool}

end Verdicts

end Runa.Fit.MoreMemory
