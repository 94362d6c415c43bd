import Runa.Engine.Placements
import Runa.Fit.CheckFit

/-!
# Automatic placement

The embedding of `placement_from_report` of `runa/src/main.rs`, which turns
the verdict of a fit check into one of three placements.  None of them is the
packing the verdict was derived from; `placementFromReport_sound_iff` says
when the placement still fits the memory that was checked.
-/

namespace Runa.App.AutoPlacement

open Runa.Stream.Utf8
open Runa.Word.Checked
open Runa.Packing
open Runa.Engine.Placements
open Runa.Fit.GgmlTypes
open Runa.Fit.Estimate
open Runa.Fit.Planner
open Runa.Fit.CheckFit

def placementFromReport (report : FitReport) : Placement :=
  match report.verdict with
  | .gpu => .gpu
  | .cpu => .cpu
  | .hybrid gpuLayers totalLayers =>
      if totalLayers ≤ gpuLayers ∧ 0 < totalLayers then .hybridMoe
      else .new (gpuLayers % 2 ^ 32) []
  | .noFit => .cpu

/-! ## What is loaded where -/

/-- The tensors whose names have a property. -/
def tensorsWhere (desc : Descriptor) (named : Text → Bool) :
    List (Text × Nat × WeightGroup) :=
  desc.tensorBytes.filter fun entry => named entry.1

/-- The bytes of tensors of a descriptor. -/
def entryBytes (entries : List (Text × Nat × WeightGroup)) : Nat :=
  (entries.map fun entry => entry.2.1).sum

variable {Hw : Type}

/--
The placement fits: what it puts on the GPU fits there with all that is
reserved, and the rest fits RAM; or all of it fits RAM.
-/
def Sound
    (desc : Descriptor) (config : FitConfig Hw) (report : FitReport) :
    Prop :=
  let onGpu := (placementFromReport report).onGpu
  let reserved := report.plan.reserved
  (tensorsWhere desc onGpu ≠ [] →
      entryBytes (tensorsWhere desc onGpu) + reserved ≤
          config.planner.vramBytes ∧
        entryBytes (tensorsWhere desc fun name => !onGpu name) ≤
          config.planner.ramBytes) ∧
    (tensorsWhere desc onGpu = [] →
      desc.weightBytes + reserved ≤ config.planner.ramBytes)

/-- The packing keeps the whole first layer on the GPU. -/
def KeepsFirstLayer (desc : Descriptor) (budget : Nat) : Prop :=
  0 < desc.nLayer ∧ layersOnGpu ((packing desc budget).map mark) = true

/--
When the placement fits, in terms of the model and the memory.  If all
weights fit the budget, they must have a size, unless there are none or the
reserved bytes alone fit the GPU.  If the packing keeps the first layer, the
tensors that are no experts must fit the GPU and the experts RAM.  Otherwise
everything must fit RAM.
-/
def SoundWhen
    (floats : Floats) (desc : Descriptor) (config : FitConfig Hw) : Prop :=
  let reserved := reservedBytes floats desc config
  let budget := config.planner.weightBudget reserved
  (desc.weightBytes ≤ budget →
      0 < desc.weightBytes ∨ desc.tensorBytes = [] ∨
        reserved ≤ config.planner.vramBytes) ∧
    (budget < desc.weightBytes → KeepsFirstLayer desc budget →
      (tensorsWhere desc (fun name => !ffnExpsRegex.search name) ≠ [] →
          entryBytes
                (tensorsWhere desc fun name =>
                  !ffnExpsRegex.search name) +
              reserved ≤
              config.planner.vramBytes ∧
            entryBytes (tensorsWhere desc ffnExpsRegex.search) ≤
              config.planner.ramBytes) ∧
        (tensorsWhere desc (fun name => !ffnExpsRegex.search name) = [] →
          desc.weightBytes + reserved ≤ config.planner.ramBytes)) ∧
    (budget < desc.weightBytes → ¬ KeepsFirstLayer desc budget →
      desc.weightBytes + reserved ≤ config.planner.ramBytes)

/-! ## When the placement fits -/

section Soundness

variable {desc : Descriptor} {config : FitConfig Hw}
variable {report : FitReport} {compute kv : Nat}

/-- All tensors on the GPU. -/
theorem tensorsWhere_true :
    tensorsWhere desc (fun _ => true) = desc.tensorBytes :=
  List.filter_true _

theorem tensorsWhere_false :
    tensorsWhere desc (fun _ => false) = [] :=
  List.filter_false _

/-- A plan with all on the GPU, under the placement for it. -/
theorem sound_gpu_iff
    (planned :
      report.plan = plan desc (config.plannerFor desc) compute kv)
    (fits : report.plan.fits = true)
    (all : report.plan.allOnGpu = true)
    (verdict : report.verdict = .gpu) :
    Sound desc config report ↔
      0 < desc.weightBytes ∨ desc.tensorBytes = [] ∨
        (config.plannerFor desc).reserved compute kv ≤
          config.planner.vramBytes := by
  have placed : (placementFromReport report).onGpu = fun _ => true := by
    rw [placementFromReport, verdict]
    rfl
  rw [planned] at fits all
  obtain ⟨gpu, cpu⟩ := plan_gpu_of_all all
  rw [plan_fits_iff, gpu, cpu] at fits
  have reserved :
      report.plan.reserved =
        (config.plannerFor desc).reserved compute kv := by
    rw [planned]
    rfl
  simp only [Sound, placed, reserved, Bool.not_true, tensorsWhere_true,
    tensorsWhere_false]
  change
    (desc.tensorBytes ≠ [] →
        desc.weightBytes + _ ≤ config.planner.vramBytes ∧
          0 ≤ config.planner.ramBytes) ∧
      (desc.tensorBytes = [] → _) ↔ _
  change
    (desc.weightBytes = 0 ∨
        desc.weightBytes + _ ≤ config.planner.vramBytes) ∧
      0 + (if desc.weightBytes = 0 then _ else 0) ≤
        config.planner.ramBytes at fits
  by_cases empty : desc.tensorBytes = []
  · have weightless : desc.weightBytes = 0 := by
      rw [Descriptor.weightBytes, empty]
      rfl
    simp only [weightless, if_true] at fits
    simp only [empty, weightless, ne_eq, not_true, false_implies,
      true_and, forall_const, true_or, or_true, iff_true]
    exact fits.2
  · simp only [ne_eq, empty, not_false_eq_true, forall_const, false_implies,
      and_true, false_or, Nat.zero_le]
    by_cases weightless : desc.weightBytes = 0
    · simp only [weightless, Nat.lt_irrefl, false_or, Nat.zero_add]
    · have positive := Nat.pos_of_ne_zero weightless
      simp only [positive, true_or, iff_true]
      exact fits.1.resolve_left weightless

/-- A plan with the first layer on the GPU, under the placement for it. -/
theorem sound_hybrid_iff
    (verdict : report.verdict = .hybrid desc.nLayer desc.nLayer)
    (layers : 0 < desc.nLayer) :
    Sound desc config report ↔
      (tensorsWhere desc (fun name => !ffnExpsRegex.search name) ≠ [] →
          entryBytes
                (tensorsWhere desc fun name =>
                  !ffnExpsRegex.search name) +
              report.plan.reserved ≤
              config.planner.vramBytes ∧
            entryBytes (tensorsWhere desc ffnExpsRegex.search) ≤
              config.planner.ramBytes) ∧
        (tensorsWhere desc (fun name => !ffnExpsRegex.search name) = [] →
          desc.weightBytes + report.plan.reserved ≤
            config.planner.ramBytes) := by
  have placed :
      (placementFromReport report).onGpu =
        fun name => !ffnExpsRegex.search name := by
    rw [placementFromReport, verdict]
    simp only [le_refl, layers, and_self, if_true]
    funext name
    exact Placement.hybridMoe_onGpu name
  simp only [Sound, placed, Bool.not_not]

/-- Any other plan, under the placement for it. -/
theorem sound_cpu_iff (verdict : report.verdict = .cpu) :
    Sound desc config report ↔
      desc.weightBytes + report.plan.reserved ≤
        config.planner.ramBytes := by
  have placed : (placementFromReport report).onGpu = fun _ => false := by
    rw [placementFromReport, verdict]
    rfl
  simp only [Sound, placed, tensorsWhere_false, ne_eq, not_true,
    false_implies, true_and, forall_const]

end Soundness

/--
A model that was found to fit is placed where it fits exactly under
`SoundWhen`.
-/
theorem placementFromReport_sound_iff
    (floats : Floats)
    (speed : Descriptor → KvEstimate → Nat → Hw → Rat)
    (desc : Descriptor) (config : FitConfig Hw) (report : FitReport)
    (checked : checkFit floats speed desc config = .ok report)
    (fits : report.verdict ≠ .noFit) :
    Sound desc config report ↔ SoundWhen floats desc config := by
  obtain ⟨mediaTokens, compute, kv, -, computed, estimated, planned,
    verdict⟩ := checkFit_eq checked
  rw [verdict] at fits
  obtain ⟨fitting, view⟩ := verdictOf_fitting fits
  rw [← verdict] at view
  have reserved :
      reservedBytes floats desc config = report.plan.reserved := by
    rw [planned, reservedBytes, computed, estimated]
    rfl
  have all :
      report.plan.allOnGpu = true ↔
        desc.weightBytes ≤
          config.planner.weightBudget report.plan.reserved := by
    rw [planned]
    exact plan_allOnGpu_iff
  have keeps :
      0 < report.plan.gpuLayers ↔
        KeepsFirstLayer desc
          (config.planner.weightBudget report.plan.reserved) := by
    rw [planned]
    exact plan_gpuLayers_pos_iff
  rw [SoundWhen, reserved]
  generalize named : report.verdict = outcome at view
  cases view with
  | gpu whole =>
      have small := all.mp whole
      rw [sound_gpu_iff planned fitting whole named]
      simp only [small, Nat.not_lt.mpr small, forall_const, false_implies,
        and_true]
      rw [planned]
      rfl
  | hybrid split layers =>
      have large :
          ¬ desc.weightBytes ≤
            config.planner.weightBudget report.plan.reserved := by
        rw [← all, split]
        exact Bool.false_ne_true
      have first := keeps.mp layers
      have count : report.plan.gpuLayers = desc.nLayer := by
        rw [planned] at layers ⊢
        exact plan_gpuLayers_of_pos layers
      rw [count] at named
      rw [sound_hybrid_iff named first.1]
      simp only [large, Nat.lt_of_not_le large, first, forall_const,
        false_implies, true_and, not_true, and_true]
  | cpu split none =>
      have large :
          ¬ desc.weightBytes ≤
            config.planner.weightBudget report.plan.reserved := by
        rw [← all, split]
        exact Bool.false_ne_true
      have other :
          ¬ KeepsFirstLayer desc
            (config.planner.weightBudget report.plan.reserved) := by
        rw [← keeps, none]
        exact Nat.lt_irrefl 0
      rw [sound_cpu_iff named]
      simp only [large, Nat.lt_of_not_le large, other, forall_const,
        false_implies, true_and, not_false_eq_true]

/-- The fit check of a small model. -/
def smallFit (ram : Nat) : FitConfig Unit where
  planner := smallConfig ram
  gpuHw := none
  cpuHw := ()
  hasMmproj := false
  media :=
    { frames := 0
      tokensPerFrame := 256
      audioSeconds := 0
      tokensPerAudioSecond := 25 }

/-- Its report, which five thousand bytes of RAM are enough for. -/
def smallReport : FitReport where
  verdict := .cpu
  warnings := []
  suggestions := [.trySiblingQuant]
  plan := plan smallModel (smallConfig 5000) 1360 4096
  speedGpu := none
  speedCpu := 10
  kvEstimate :=
    { kvBytes := 4096
      kvBytesPerLayer := [4096]
      effectiveCtx := 16
      usedMla := false
      nSwaLayers := 0 }
  computeEstimate :=
    { computeBytes := 1360
      computeBytesRaw := 1183
      nUbatch := 1 }
  exitCode := 0
  mediaTokens := 0

theorem placementFromReport_sound_small :
    checkFit .exact (fun _ _ _ _ => 10) smallModel (smallFit 20000) =
        .ok smallReport ∧
      (Sound smallModel (smallFit 20000) smallReport ↔
        SoundWhen .exact smallModel (smallFit 20000)) :=
  ⟨by decide +kernel,
    placementFromReport_sound_iff .exact (fun _ _ _ _ => 10) smallModel
      (smallFit 20000) smallReport (by decide +kernel)
      (by simp [smallReport])⟩

/-- A model that was found to fit the CPU and does not fit RAM. -/
theorem placementFromReport_unsound :
    checkFit .exact (fun _ _ _ _ => 10) smallModel (smallFit 5000) =
        .ok smallReport ∧
      smallReport.verdict ≠ .noFit ∧
      ¬ Sound smallModel (smallFit 5000) smallReport := by
  refine ⟨by decide +kernel, by simp [smallReport], ?_⟩
  rw [sound_cpu_iff rfl]
  decide +kernel

end Runa.App.AutoPlacement
