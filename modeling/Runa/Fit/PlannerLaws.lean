import Runa.Fit.Planner

/-!
# What a plan is

A plan lists the tensors of its descriptor, stays within its budget, and
leaves no tensor on the CPU that would have fitted: not next to all that is on
the GPU, and not next to what comes before it there.
-/

namespace Runa.Fit.Planner

open Runa.Stream.Utf8
open Runa.Word.Checked
open Runa.Packing
open Runa.Fit.GgmlTypes
open Runa.Fit.Estimate

/-- What a plan reserves next to the weights. -/
def PlacementPlan.reserved (result : PlacementPlan) : Nat :=
  result.computeBufferBytes + result.kvBytes + result.mmprojBytes +
    result.loraBytes + result.encoderComputeBytes

/-- The bytes of tensors. -/
def bytesOf (tensors : List TensorPlacement) : Nat :=
  (tensors.map TensorPlacement.bytes).sum

/-- The tensors that are on the GPU. -/
def gpuTensors (tensors : List TensorPlacement) : List TensorPlacement :=
  tensors.filter TensorPlacement.onGpu

/-- The tensors that are not. -/
def cpuTensors (tensors : List TensorPlacement) : List TensorPlacement :=
  tensors.filter fun tensor => !tensor.onGpu

/-- A plan that packs its descriptor exactly and as far as possible. -/
structure PlacementPlan.Exact
    (floats : Floats) (desc : Descriptor) (config : PlannerConfig)
    (result : PlacementPlan) : Prop where
  reserves :
    ∃ compute kv,
      estimateCompute floats desc config.nUbatch = .ok compute ∧
        estimateKv floats desc config.ctxLen config.kvType = .ok kv ∧
        result.reserved =
          compute.computeBytes + kv.kvBytes + config.mmprojBytes +
            config.loraBytes + config.encoderComputeBytes
  listed :
    (result.tensors.map fun tensor =>
      (tensor.name, tensor.bytes, tensor.group)).Perm desc.tensorBytes
  once : (result.tensors.map TensorPlacement.name).Nodup
  gpu : result.gpuWeightBytes = bytesOf (gpuTensors result.tensors)
  cpu : result.cpuWeightBytes = bytesOf (cpuTensors result.tensors)
  all :
    result.gpuWeightBytes + result.cpuWeightBytes = desc.weightBytes
  within :
    result.gpuWeightBytes ≤ config.weightBudget result.reserved
  total :
    0 < result.gpuWeightBytes →
      result.gpuTotalBytes ≤ config.vramBytes - config.vramMargin
  maximal :
    ∀ tensor ∈ cpuTensors result.tensors,
      config.weightBudget result.reserved <
        result.gpuWeightBytes + tensor.bytes
  ordered : result.tensors.Pairwise Before
  prior :
    ∀ before tensor after,
      result.tensors = before ++ tensor :: after →
        tensor.onGpu = false →
          config.weightBudget result.reserved <
            bytesOf (gpuTensors before) + tensor.bytes

variable {desc : Descriptor} {budget : Nat}

/-! ## The packing -/

theorem sorted_perm (desc : Descriptor) :
    (sorted desc).Perm (desc.tensorBytes.map collect) :=
  List.perm_insertionSort Before _

theorem sorted_weightBytes (desc : Descriptor) :
    ((sorted desc).map TensorPlacement.bytes).sum = desc.weightBytes := by
  have bytes := ((sorted_perm desc).map TensorPlacement.bytes).sum_eq
  rw [List.map_map] at bytes
  exact bytes

/-- The packing lists the tensors of the descriptor. -/
theorem packing_listed :
    (((packing desc budget).map mark).map fun tensor =>
      (tensor.name, tensor.bytes, tensor.group)).Perm
        desc.tensorBytes := by
  have names :
      ((packing desc budget).map mark).map
          (fun tensor => (tensor.name, tensor.bytes, tensor.group)) =
        (sorted desc).map fun tensor =>
          (tensor.name, tensor.bytes, tensor.group) := by
    rw [List.map_map, packing]
    nth_rewrite 2
      [← @Greedy.fill_fst _ TensorPlacement.bytes budget 0 (sorted desc)]
    rw [List.map_map]
    rfl
  have collected := (sorted_perm desc).map fun tensor =>
    (tensor.name, tensor.bytes, tensor.group)
  rw [List.map_map] at collected
  rw [names]
  exact collected.trans (List.Perm.of_eq (List.map_id _))

theorem packing_names :
    (((packing desc budget).map mark).map
      TensorPlacement.name).Nodup := by
  have names := (@packing_listed desc budget).map Prod.fst
  rw [List.map_map] at names
  exact names.nodup_iff.mpr desc.distinct

/-- Every byte is on one side or the other. -/
theorem packing_total :
    Greedy.taken TensorPlacement.bytes (packing desc budget) +
        Greedy.refused TensorPlacement.bytes (packing desc budget) =
      desc.weightBytes := by
  have bytes := (@packing_listed desc budget).map fun entry => entry.2.1
  rw [List.map_map, List.map_map] at bytes
  rw [Greedy.taken_add_refused]
  exact bytes.sum_eq

theorem packing_ordered :
    ((packing desc budget).map mark).Pairwise Before := by
  have ordered := List.pairwise_insertionSort Before
    (desc.tensorBytes.map collect)
  have marked :
      ((packing desc budget).map Prod.fst).Pairwise Before := by
    rw [packing, Greedy.fill_fst]
    exact ordered
  rw [List.pairwise_map] at marked ⊢
  exact marked

/-- What is on the CPU comes from a mark. -/
theorem packing_split
    {before after : List TensorPlacement} {tensor : TensorPlacement}
    (parts : (packing desc budget).map mark = before ++ tensor :: after)
    (refused : tensor.onGpu = false) :
    budget < bytesOf (gpuTensors before) + tensor.bytes := by
  obtain ⟨first, rest, split, rfl, marked⟩ := List.map_eq_append_iff.mp parts
  obtain ⟨⟨item, flag⟩, last, rfl, rfl, rfl⟩ :=
    List.map_eq_cons_iff.mp marked
  have unmarked : flag = false := refused
  subst unmarked
  have short := Greedy.fill_refused split
  rw [Nat.zero_add, ← taken_eq_filter] at short
  exact short

theorem packing_within :
    Greedy.taken TensorPlacement.bytes (packing desc budget) ≤ budget := by
  have bound :=
    @Greedy.taken_le _ TensorPlacement.bytes budget 0 (sorted desc)
      (Nat.zero_le _)
  rwa [Nat.zero_add] at bound

/-- Nothing is refused where there is room for everything. -/
theorem packing_roomy (roomy : desc.weightBytes ≤ budget) :
    Greedy.refused TensorPlacement.bytes (packing desc budget) = 0 := by
  refine Greedy.refused_of_all TensorPlacement.bytes ?_
  rwa [packing, Greedy.all_taken_iff (Nat.zero_le _), Nat.zero_add,
    sorted_weightBytes]

/-- Whether there is a first layer does not depend on the packing. -/
theorem firstLayer_packing :
    (firstLayer ((packing desc budget).map mark)).isEmpty =
      !desc.tensorBytes.any fun entry =>
        "blk.0.".toList.isPrefixOf entry.1 := by
  have listed := (@packing_listed desc budget).any_eq
    (f := fun entry => "blk.0.".toList.isPrefixOf entry.1)
  rw [← listed, List.any_map, Bool.eq_iff_iff, List.isEmpty_iff,
    firstLayer, List.filter_eq_nil_iff, Bool.not_eq_true',
    List.any_eq_false]
  exact Iff.rfl

/-! ## The plan -/

/-- Whatever the planner returns is an exact plan. -/
theorem planPlacement_exact
    (floats : Floats) (desc : Descriptor) (config : PlannerConfig)
    (result : PlacementPlan)
    (planned : planPlacement floats desc config = .ok result) :
    result.Exact floats desc config := by
  obtain ⟨compute, kv, computed, estimated, rfl⟩ := planPlacement_eq planned
  have within :=
    @packing_within desc
      (config.weightBudget
        (config.reserved compute.computeBytes kv.kvBytes))
  exact
    { reserves := ⟨compute, kv, computed, estimated, rfl⟩
      listed := packing_listed
      once := packing_names
      gpu := (taken_eq_filter _).symm
      cpu := (refused_eq_filter _).symm
      all := packing_total
      within := within
      total := by
        intro positive
        simp only [plan, PlannerConfig.weightBudget] at within positive ⊢
        omega
      maximal := by
        intro tensor member
        obtain ⟨listed, refused⟩ := List.mem_filter.mp member
        obtain ⟨before, after, parts⟩ := List.append_of_mem listed
        have short :=
          packing_split parts (by simpa using refused)
        have gpu :
            (plan desc config compute.computeBytes
                kv.kvBytes).gpuWeightBytes =
              bytesOf (gpuTensors (before ++ tensor :: after)) := by
          rw [← parts]
          exact (taken_eq_filter _).symm
        rw [gpu]
        refine short.trans_le (Nat.add_le_add_right ?_ _)
        simp [bytesOf, gpuTensors]
      ordered := packing_ordered
      prior := fun before tensor after parts refused =>
        packing_split parts refused }

/-- A model of one layer and three tensors, for concrete plans. -/
def smallModel : Descriptor where
  arch := "llama".toList
  nLayer := 1
  nEmbd := 64
  nHead := 1
  nHeadKv := 1
  headDim := 64
  nCtxTrain := 4096
  nVocab := 1000
  nVocabOut := 1000
  nExpert := 0
  nExpertUsed := 0
  slidingWindow := 0
  kvLoraRank := 0
  nRecurrent := 0
  weightBytesDense := 11000
  weightBytesExpert := 0
  weightBytesEmbedOut := 800
  weightBytesTotal := 11800
  tensorBytes :=
    [("token_embd.weight".toList, 800, .embedOut),
      ("blk.0.ffn_down.weight".toList, 5000, .dense),
      ("blk.0.attn_q.weight".toList, 6000, .dense)]
  distinct := by decide +kernel
  version := 3

/-- A GPU with room for ten thousand bytes of its weights. -/
def smallConfig (ram : Nat) : PlannerConfig where
  vramBytes := 15456
  ramBytes := ram
  vramMargin := 0
  nUbatch := 1
  kvType := "f16".toList
  ctxLen := 16
  mmprojBytes := 0
  loraBytes := 0
  encoderComputeBytes := 0

theorem planPlacement_exact_small :
    planPlacement .exact smallModel (smallConfig 5000) =
        .ok (plan smallModel (smallConfig 5000) 1360 4096) ∧
      (plan smallModel (smallConfig 5000) 1360 4096).gpuWeightBytes =
        6800 ∧
      (plan smallModel (smallConfig 5000) 1360 4096).Exact .exact
        smallModel (smallConfig 5000) :=
  ⟨by decide +kernel, by decide +kernel,
    planPlacement_exact .exact smallModel (smallConfig 5000)
      (plan smallModel (smallConfig 5000) 1360 4096)
      (by decide +kernel)⟩

/-! ## The flags of a plan -/

section Flags

variable {config : PlannerConfig} {compute kv : Nat}

/-- All is on the GPU exactly if all of it fits the budget. -/
theorem plan_allOnGpu_iff :
    (plan desc config compute kv).allOnGpu = true ↔
      desc.weightBytes ≤
        config.weightBudget (config.reserved compute kv) := by
  have all :=
    @Greedy.all_taken_iff _ TensorPlacement.bytes
      (config.weightBudget (config.reserved compute kv)) 0 (sorted desc)
      (Nat.zero_le _)
  rw [Nat.zero_add, sorted_weightBytes] at all
  exact all

/-- A plan with all on the GPU counts every byte there. -/
theorem plan_gpu_of_all
    (all : (plan desc config compute kv).allOnGpu = true) :
    (plan desc config compute kv).gpuWeightBytes = desc.weightBytes ∧
      (plan desc config compute kv).cpuWeightBytes = 0 := by
  have total :=
    @packing_total desc (config.weightBudget (config.reserved compute kv))
  have none := Greedy.refused_of_all TensorPlacement.bytes all
  refine ⟨?_, none⟩
  rw [none, Nat.add_zero] at total
  exact total

theorem plan_fits_iff :
    (plan desc config compute kv).fits = true ↔
      ((plan desc config compute kv).gpuWeightBytes = 0 ∨
          (plan desc config compute kv).gpuWeightBytes +
              config.reserved compute kv ≤
            config.vramBytes) ∧
        (plan desc config compute kv).cpuWeightBytes +
            (if (plan desc config compute kv).gpuWeightBytes = 0 then
              config.reserved compute kv
            else 0) ≤
          config.ramBytes := by
  simp only [plan, Bool.and_eq_true, Bool.or_eq_true, decide_eq_true_eq]
  exact Iff.rfl

/-- Layers are on the GPU all together or not at all. -/
theorem plan_gpuLayers_pos_iff :
    0 < (plan desc config compute kv).gpuLayers ↔
      0 < desc.nLayer ∧
        layersOnGpu (plan desc config compute kv).tensors = true := by
  simp only [plan]
  split_ifs with layers onGpu
  · simp [layers, onGpu]
  · simp [onGpu]
  · simp [layers]

theorem plan_gpuLayers_of_pos
    (layers : 0 < (plan desc config compute kv).gpuLayers) :
    (plan desc config compute kv).gpuLayers = desc.nLayer := by
  obtain ⟨some, onGpu⟩ := plan_gpuLayers_pos_iff.mp layers
  simp only [plan] at onGpu ⊢
  rw [if_pos some, if_pos onGpu]

end Flags

end Runa.Fit.Planner
