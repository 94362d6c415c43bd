import Runa.Fit.PlannerLaws

/-!
# Layer counts

A plan counts the layers that are fully on the GPU and fully on the CPU by
the first layer alone.  `layersExact_iff` says when that is right: when the
packing treats all layers alike.
-/

namespace Runa.Fit.Planner

open Runa.Stream.Utf8
open Runa.Packing
open Runa.Fit.GgmlTypes
open Runa.Fit.Estimate

/-! ## What is counted -/

/-- What the names of the tensors of a layer begin with. -/
def layerPrefix (layer : Nat) : Text :=
  "blk.".toList ++ (toString layer).toList ++ ".".toList

def layerTensors (tensors : List TensorPlacement) (layer : Nat) :
    List TensorPlacement :=
  tensors.filter fun tensor => (layerPrefix layer).isPrefixOf tensor.name

/-- A layer that has tensors, all of them on the GPU. -/
def fullyOnGpu (tensors : List TensorPlacement) (layer : Nat) : Bool :=
  !(layerTensors tensors layer).isEmpty &&
    (layerTensors tensors layer).all TensorPlacement.onGpu

/-- A layer with no tensor on the GPU. -/
def fullyOnCpu (tensors : List TensorPlacement) (layer : Nat) : Bool :=
  (layerTensors tensors layer).all fun tensor => !tensor.onGpu

/-- The counts of a plan are the numbers of such layers. -/
structure LayersExact (desc : Descriptor) (result : PlacementPlan) :
    Prop where
  gpu : result.gpuLayers =
    (List.range desc.nLayer).countP (fullyOnGpu result.tensors)
  cpu : result.cpuLayers =
    (List.range desc.nLayer).countP (fullyOnCpu result.tensors)

/-- The tensors, each with what it gets of a budget in the packing order. -/
def packed (desc : Descriptor) (budget : Nat) : List TensorPlacement :=
  (packing desc budget).map mark

/-- The packing takes whole layers only, and all of them or none. -/
def LayersAlike (desc : Descriptor) (budget : Nat) : Prop :=
  (∀ layer < desc.nLayer, fullyOnGpu (packed desc budget) layer = true) ∨
    ∀ layer < desc.nLayer, fullyOnCpu (packed desc budget) layer = true

/-! ## When the counts are right -/

section Counts

variable {desc : Descriptor} {config : PlannerConfig} {compute kv : Nat}
  {tensors : List TensorPlacement} {layer : Nat}

/-- The first layer is the one that the planner looks at. -/
theorem layersOnGpu_eq : layersOnGpu tensors = fullyOnGpu tensors 0 := by
  have name : "blk.0.".toList = layerPrefix 0 := by decide
  rw [layersOnGpu, firstLayer, fullyOnGpu, layerTensors, name]

theorem not_fullyOnCpu (onGpu : fullyOnGpu tensors layer = true) :
    fullyOnCpu tensors layer = false := by
  rw [fullyOnGpu, Bool.and_eq_true, Bool.not_eq_true',
    List.isEmpty_eq_false_iff] at onGpu
  obtain ⟨some, all⟩ := onGpu
  obtain ⟨tensor, member⟩ := List.exists_mem_of_ne_nil _ some
  rw [fullyOnCpu, List.all_eq_false]
  refine ⟨tensor, member, ?_⟩
  simp [List.all_eq_true.mp all tensor member]

theorem not_fullyOnGpu (onCpu : fullyOnCpu tensors layer = true) :
    fullyOnGpu tensors layer = false := by
  by_contra onGpu
  rw [Bool.not_eq_false] at onGpu
  rw [not_fullyOnCpu onGpu] at onCpu
  cases onCpu

theorem countP_range_eq_iff {among : Nat → Bool} {count : Nat} :
    (List.range count).countP among = count ↔
      ∀ layer < count, among layer = true := by
  have all := @List.countP_eq_length _ (List.range count) among
  simpa using all

theorem countP_range_eq_zero {among : Nat → Bool} {count : Nat}
    (none : ∀ layer < count, among layer = false) :
    (List.range count).countP among = 0 := by
  rw [List.countP_eq_zero]
  intro layer member
  rw [none layer (List.mem_range.mp member)]
  exact Bool.false_ne_true

/-- The count by the first layer is right if the layers are alike. -/
theorem counts_iff {count : Nat} :
    (if 0 < count then if fullyOnGpu tensors 0 then count else 0 else 0) =
          (List.range count).countP (fullyOnGpu tensors) ∧
        (if 0 < count then if fullyOnGpu tensors 0 then 0 else count
          else 0) =
          (List.range count).countP (fullyOnCpu tensors) ↔
      (∀ layer < count, fullyOnGpu tensors layer = true) ∨
        ∀ layer < count, fullyOnCpu tensors layer = true := by
  rcases Nat.eq_zero_or_pos count with rfl | positive
  · simp
  · rw [if_pos positive, if_pos positive]
    split_ifs with first
    · constructor
      · rintro ⟨gpu, -⟩
        exact Or.inl (countP_range_eq_iff.mp gpu.symm)
      · rintro (onGpu | onCpu)
        · exact ⟨(countP_range_eq_iff.mpr onGpu).symm,
            (countP_range_eq_zero fun layer below =>
              not_fullyOnCpu (onGpu layer below)).symm⟩
        · rw [not_fullyOnGpu (onCpu 0 positive)] at first
          cases first
    · constructor
      · rintro ⟨-, cpu⟩
        exact Or.inr (countP_range_eq_iff.mp cpu.symm)
      · rintro (onGpu | onCpu)
        · exact (first (onGpu 0 positive)).elim
        · exact ⟨(countP_range_eq_zero fun layer below =>
              not_fullyOnGpu (onCpu layer below)).symm,
            (countP_range_eq_iff.mpr onCpu).symm⟩

theorem plan_layersExact_iff :
    LayersExact desc (plan desc config compute kv) ↔
      LayersAlike desc
        (config.weightBudget (config.reserved compute kv)) := by
  rw [LayersAlike, ← counts_iff]
  constructor
  · rintro ⟨gpu, cpu⟩
    rw [← layersOnGpu_eq]
    exact ⟨gpu, cpu⟩
  · rintro ⟨gpu, cpu⟩
    rw [← layersOnGpu_eq] at gpu cpu
    exact ⟨gpu, cpu⟩

end Counts

/--
The layer counts of a plan are right exactly if every layer has tensors and
the packing takes them all, or it takes no tensor of any layer.
-/
theorem layersExact_iff
    {floats : Floats} {desc : Descriptor} {config : PlannerConfig}
    {result : PlacementPlan}
    (planned : planPlacement floats desc config = .ok result) :
    LayersExact desc result ↔
      LayersAlike desc (config.weightBudget result.reserved) := by
  obtain ⟨compute, kv, -, -, rfl⟩ := planPlacement_eq planned
  exact plan_layersExact_iff

/-- The small model, with room for all of it. -/
def roomyConfig : PlannerConfig :=
  { smallConfig 5000 with vramBytes := 20000 }

theorem layersExact_roomy :
    planPlacement .exact smallModel roomyConfig =
        .ok (plan smallModel roomyConfig 1360 4096) ∧
      LayersExact smallModel (plan smallModel roomyConfig 1360 4096) := by
  have planned :
      planPlacement .exact smallModel roomyConfig =
        .ok (plan smallModel roomyConfig 1360 4096) := by
    decide +kernel
  refine ⟨planned, (layersExact_iff planned).mpr (Or.inl ?_)⟩
  intro layer below
  obtain rfl : layer = 0 := Nat.lt_one_iff.mp below
  decide +kernel

/-- Two layers of one structure, with room for one of them. -/
def pairModel : Descriptor :=
  { smallModel with
    nLayer := 2
    tensorBytes :=
      [("blk.0.ffn_down.weight".toList, 4000, .dense),
        ("blk.1.ffn_down.weight".toList, 4000, .dense)]
    distinct := by decide +kernel }

/-- Both layers are counted for the one that is on the GPU. -/
theorem not_layersExact_pair :
    ∃ result,
      planPlacement .exact pairModel (smallConfig 50000) = .ok result ∧
        result.gpuLayers = 2 ∧ result.cpuLayers = 0 ∧
          fullyOnGpu result.tensors 0 = true ∧
            fullyOnCpu result.tensors 1 = true := by
  refine ⟨plan pairModel (smallConfig 50000) 2390 8192, ?_, ?_, ?_, ?_, ?_⟩
  · decide +kernel
  · decide +kernel
  · decide +kernel
  · decide +kernel
  · decide +kernel

end Runa.Fit.Planner
