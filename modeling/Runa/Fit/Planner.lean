import Runa.Fit.Estimate
import Runa.Packing.Greedy
import Mathlib.Data.List.Sort

/-!
# The placement planner

The embedding of `plan_placement` of `runa-fit/src/planner.rs`.  Its loop is
greedy packing of the tensors in their order; `planPlacement_eq` takes the
machine arithmetic out once and for all, so that whatever the planner returns
is `plan`, the same plan over natural numbers.
-/

namespace Runa.Fit.Planner

open Runa.Stream.Utf8
open Runa.Word.Checked
open Runa.Packing
open Runa.Fit.GgmlTypes
open Runa.Fit.Estimate

/-- Placement decision for a single tensor. -/
structure TensorPlacement where
  name : Text
  bytes : Nat
  group : WeightGroup
  onGpu : Bool
deriving DecidableEq, Repr

/-- Complete placement plan. -/
structure PlacementPlan where
  gpuWeightBytes : Nat
  cpuWeightBytes : Nat
  computeBufferBytes : Nat
  kvBytes : Nat
  mmprojBytes : Nat
  loraBytes : Nat
  gpuTotalBytes : Nat
  encoderComputeBytes : Nat
  tensors : List TensorPlacement
  gpuLayers : Nat
  cpuLayers : Nat
  allOnGpu : Bool
  fits : Bool
deriving DecidableEq, Repr

/-- Configuration for the placement planner. -/
structure PlannerConfig where
  vramBytes : Nat
  ramBytes : Nat
  vramMargin : Nat
  nUbatch : Nat
  kvType : Text
  ctxLen : Nat
  mmprojBytes : Nat
  loraBytes : Nat
  encoderComputeBytes : Nat
deriving DecidableEq, Repr

/-! ## The order of the tensors -/

/-- Lower is evicted first. -/
def evictionPriority : WeightGroup → Nat
  | .expert => 0
  | .embedOut => 1
  | .dense => 2

/-- The comparison does not put the first tensor behind the second. -/
def Before (first second : TensorPlacement) : Prop :=
  evictionPriority second.group < evictionPriority first.group ∨
    evictionPriority second.group = evictionPriority first.group ∧
      second.bytes ≤ first.bytes

instance : DecidableRel Before := fun _ _ =>
  inferInstanceAs (Decidable (_ ∨ _ ∧ _))

instance : IsTrans TensorPlacement Before where
  trans := by
    intro first second third
    unfold Before
    omega

instance : Std.Total Before where
  total := by
    intro first second
    unfold Before
    omega

/-- A tensor as it is collected from the map. -/
def collect (entry : Text × Nat × WeightGroup) : TensorPlacement where
  name := entry.1
  bytes := entry.2.1
  group := entry.2.2
  onGpu := false

/-- The tensors in the order in which they are packed. -/
def sorted (desc : Descriptor) : List TensorPlacement :=
  (desc.tensorBytes.map collect).insertionSort Before

/-! ## The plan -/

/-- The loop that fills the GPU; also the bytes it has put there. -/
def fillGpu (budget : Nat) :
    Nat → List TensorPlacement → Result (Nat × List TensorPlacement)
  | gpuBytes, [] => .ok (gpuBytes, [])
  | gpuBytes, tensor :: rest => do
      let more ← add u64Limit gpuBytes tensor.bytes
      if more ≤ budget then
        let (total, placed) ← fillGpu budget more rest
        return (total, { tensor with onGpu := true } :: placed)
      else
        let (total, placed) ← fillGpu budget gpuBytes rest
        return (total, tensor :: placed)

/-- The tensors of the first layer. -/
def firstLayer (tensors : List TensorPlacement) : List TensorPlacement :=
  tensors.filter fun tensor => "blk.0.".toList.isPrefixOf tensor.name

/-- The first layer stands for all. -/
def layersOnGpu (tensors : List TensorPlacement) : Bool :=
  !(firstLayer tensors).isEmpty &&
    (firstLayer tensors).all TensorPlacement.onGpu

/-- Scratch goes to RAM when nothing lives on the GPU at all. -/
def besideWeights (gpuBytes : Nat) (scratch : List Nat) : Result Nat :=
  if gpuBytes = 0 then sum u64Limit scratch else .ok 0

def planPlacement
    (floats : Floats) (desc : Descriptor) (config : PlannerConfig) :
    Result PlacementPlan := do
  let availableVram := config.vramBytes - config.vramMargin
  let compute ← estimateCompute floats desc config.nUbatch
  let kv ← estimateKv floats desc config.ctxLen config.kvType
  let reserved ←
    sum u64Limit
      [compute.computeBytes, kv.kvBytes, config.mmprojBytes,
        config.loraBytes, config.encoderComputeBytes]
  let weightBudget := availableVram - reserved
  let (gpuBytes, tensors) ← fillGpu weightBudget 0 (sorted desc)
  let cpuBytes ←
    sum u64Limit
      ((tensors.filter fun tensor => !tensor.onGpu).map
        TensorPlacement.bytes)
  let gpuTotal ←
    sum u64Limit
      [gpuBytes, compute.computeBytes, kv.kvBytes, config.mmprojBytes,
        config.loraBytes, config.encoderComputeBytes]
  let beside ←
    besideWeights gpuBytes
      [compute.computeBytes, kv.kvBytes, config.mmprojBytes,
        config.loraBytes, config.encoderComputeBytes]
  let cpuNeed ← add u64Limit cpuBytes beside
  .ok
    { gpuWeightBytes := gpuBytes
      cpuWeightBytes := cpuBytes
      computeBufferBytes := compute.computeBytes
      kvBytes := kv.kvBytes
      mmprojBytes := config.mmprojBytes
      loraBytes := config.loraBytes
      gpuTotalBytes := gpuTotal
      encoderComputeBytes := config.encoderComputeBytes
      tensors := tensors
      gpuLayers :=
        if 0 < desc.nLayer then
          if layersOnGpu tensors then desc.nLayer else 0
        else 0
      cpuLayers :=
        if 0 < desc.nLayer then
          if layersOnGpu tensors then 0 else desc.nLayer
        else 0
      allOnGpu := tensors.all TensorPlacement.onGpu
      fits :=
        (decide (gpuBytes = 0) || decide (gpuTotal ≤ config.vramBytes)) &&
          decide (cpuNeed ≤ config.ramBytes) }

/-! ## The plan over natural numbers -/

/-- A tensor on the GPU or not. -/
def mark (entry : TensorPlacement × Bool) : TensorPlacement :=
  { entry.1 with onGpu := entry.2 }

/-- What is reserved next to the weights. -/
def PlannerConfig.reserved
    (config : PlannerConfig) (compute kv : Nat) : Nat :=
  compute + kv + config.mmprojBytes + config.loraBytes +
    config.encoderComputeBytes

/-- What is left for weights on the GPU. -/
def PlannerConfig.weightBudget
    (config : PlannerConfig) (reserved : Nat) : Nat :=
  config.vramBytes - config.vramMargin - reserved

/-- The packing of the tensors under a budget. -/
def packing (desc : Descriptor) (budget : Nat) :
    List (TensorPlacement × Bool) :=
  Greedy.fill TensorPlacement.bytes budget 0 (sorted desc)

/-- The plan for these sizes of the compute buffer and the KV cache. -/
def plan
    (desc : Descriptor) (config : PlannerConfig) (compute kv : Nat) :
    PlacementPlan :=
  let reserved := config.reserved compute kv
  let packed := packing desc (config.weightBudget reserved)
  let gpuBytes := Greedy.taken TensorPlacement.bytes packed
  let cpuBytes := Greedy.refused TensorPlacement.bytes packed
  let tensors := packed.map mark
  { gpuWeightBytes := gpuBytes
    cpuWeightBytes := cpuBytes
    computeBufferBytes := compute
    kvBytes := kv
    mmprojBytes := config.mmprojBytes
    loraBytes := config.loraBytes
    gpuTotalBytes := gpuBytes + reserved
    encoderComputeBytes := config.encoderComputeBytes
    tensors := tensors
    gpuLayers :=
      if 0 < desc.nLayer then
        if layersOnGpu tensors then desc.nLayer else 0
      else 0
    cpuLayers :=
      if 0 < desc.nLayer then
        if layersOnGpu tensors then 0 else desc.nLayer
      else 0
    allOnGpu := packed.all Prod.snd
    fits :=
      (decide (gpuBytes = 0) ||
          decide (gpuBytes + reserved ≤ config.vramBytes)) &&
        decide
          (cpuBytes + (if gpuBytes = 0 then reserved else 0) ≤
            config.ramBytes) }

theorem u64Limit_pos : 0 < u64Limit := by
  decide

/-- The loop is greedy packing. -/
theorem fillGpu_eq
    {budget gpuBytes total : Nat}
    {tensors placed : List TensorPlacement}
    (unplaced : ∀ tensor ∈ tensors, tensor.onGpu = false)
    (filled : fillGpu budget gpuBytes tensors = .ok (total, placed)) :
    total =
        gpuBytes +
          Greedy.taken TensorPlacement.bytes
            (Greedy.fill TensorPlacement.bytes budget gpuBytes tensors) ∧
      placed =
        (Greedy.fill TensorPlacement.bytes budget gpuBytes
          tensors).map mark := by
  induction tensors generalizing gpuBytes placed with
  | nil =>
      cases filled
      exact ⟨rfl, rfl⟩
  | cons tensor tensors induction =>
      obtain ⟨here, others⟩ := List.forall_mem_cons.mp unplaced
      rw [fillGpu, bind_eq_ok] at filled
      obtain ⟨more, added, filled⟩ := filled
      obtain ⟨-, rfl⟩ := add_eq_ok.mp added
      rw [Greedy.fill]
      split_ifs at filled ⊢ with fits
      · obtain ⟨⟨rest, placed'⟩, onward, ends⟩ := bind_eq_ok.mp filled
        cases ends
        obtain ⟨rfl, rfl⟩ := induction others onward
        rw [Greedy.taken_cons_true, ← Nat.add_assoc]
        exact ⟨rfl, rfl⟩
      · obtain ⟨⟨rest, placed'⟩, onward, ends⟩ := bind_eq_ok.mp filled
        cases ends
        obtain ⟨rfl, rfl⟩ := induction others onward
        rw [Greedy.taken_cons_false, List.map_cons, mark, ← here]
        exact ⟨rfl, rfl⟩

theorem sorted_unplaced (desc : Descriptor) :
    ∀ tensor ∈ sorted desc, tensor.onGpu = false := by
  intro tensor member
  obtain ⟨entry, -, rfl⟩ :=
    List.mem_map.mp ((List.mem_insertionSort Before).mp member)
  rfl

/-- The bytes on the CPU, from the marks. -/
theorem refused_eq_filter (packed : List (TensorPlacement × Bool)) :
    (((packed.map mark).filter fun tensor => !tensor.onGpu).map
        TensorPlacement.bytes).sum =
      Greedy.refused TensorPlacement.bytes packed := by
  rw [List.filter_map, List.map_map]
  rfl

theorem taken_eq_filter (packed : List (TensorPlacement × Bool)) :
    (((packed.map mark).filter TensorPlacement.onGpu).map
        TensorPlacement.bytes).sum =
      Greedy.taken TensorPlacement.bytes packed := by
  rw [List.filter_map, List.map_map]
  rfl

theorem besideWeights_eq
    {gpuBytes beside : Nat} {scratch : List Nat}
    (besides : besideWeights gpuBytes scratch = .ok beside) :
    beside = if gpuBytes = 0 then scratch.sum else 0 := by
  unfold besideWeights at besides
  split_ifs at besides ⊢
  · exact ((sum_eq_ok u64Limit_pos).mp besides).2.symm
  · cases besides
    rfl

theorem besideWeights_ok
    {scratch : List Nat} (gpuBytes : Nat)
    (small : scratch.sum < u64Limit) :
    besideWeights gpuBytes scratch =
      .ok (if gpuBytes = 0 then scratch.sum else 0) := by
  unfold besideWeights
  split_ifs
  · exact (sum_eq_ok u64Limit_pos).mpr ⟨small, rfl⟩
  · rfl

/-- What the planner adds up before it looks at the weights. -/
theorem PlannerConfig.sum_reserved
    (config : PlannerConfig) (compute kv : Nat) :
    [compute, kv, config.mmprojBytes, config.loraBytes,
        config.encoderComputeBytes].sum =
      config.reserved compute kv := by
  simp only [List.sum_cons, List.sum_nil, PlannerConfig.reserved]
  omega

/-- What the planner returns is the plan over natural numbers. -/
theorem planPlacement_eq
    {floats : Floats} {desc : Descriptor} {config : PlannerConfig}
    {result : PlacementPlan}
    (planned : planPlacement floats desc config = .ok result) :
    ∃ compute kv,
      estimateCompute floats desc config.nUbatch = .ok compute ∧
        estimateKv floats desc config.ctxLen config.kvType = .ok kv ∧
        result = plan desc config compute.computeBytes kv.kvBytes := by
  simp only [planPlacement, bind_eq_ok] at planned
  obtain ⟨compute, computed, kv, estimated, reserved, reserves,
    ⟨gpuBytes, tensors⟩, filled, cpuBytes, cpu, gpuTotal, total, beside,
    besides, cpuNeed, need, ends⟩ := planned
  refine ⟨compute, kv, computed, estimated, ?_⟩
  obtain ⟨-, rfl⟩ := (sum_eq_ok u64Limit_pos).mp reserves
  obtain ⟨-, rfl⟩ := (sum_eq_ok u64Limit_pos).mp total
  obtain ⟨-, rfl⟩ := (sum_eq_ok u64Limit_pos).mp cpu
  obtain ⟨-, rfl⟩ := add_eq_ok.mp need
  obtain ⟨rfl, rfl⟩ := fillGpu_eq (sorted_unplaced desc) filled
  have scratch :=
    config.sum_reserved compute.computeBytes kv.kvBytes
  have aside := besideWeights_eq besides
  rw [scratch, Nat.zero_add] at aside
  rw [scratch] at ends
  rw [List.sum_cons, scratch, Nat.zero_add, refused_eq_filter, aside,
    Except.ok.injEq] at ends
  rw [← ends]
  simp only [plan, packing, PlannerConfig.weightBudget, List.all_map]
  rfl

/-! ## Where the arithmetic stays in range -/

/-- The loop looks at nothing but sizes. -/
theorem fillGpu_ok_of_bytes
    {budget gpuBytes : Nat} {tensors tensors' : List TensorPlacement}
    {filled : Nat × List TensorPlacement}
    (same :
      tensors.map TensorPlacement.bytes =
        tensors'.map TensorPlacement.bytes)
    (fills : fillGpu budget gpuBytes tensors = .ok filled) :
    ∃ filled', fillGpu budget gpuBytes tensors' = .ok filled' := by
  induction tensors generalizing gpuBytes tensors' filled with
  | nil =>
      rw [List.map_nil, eq_comm, List.map_eq_nil_iff] at same
      subst same
      exact ⟨_, rfl⟩
  | cons tensor tensors induction =>
      rw [List.map_cons, eq_comm, List.map_eq_cons_iff] at same
      obtain ⟨tensor', tensors', rfl, bytes, rest⟩ := same
      rw [fillGpu, bind_eq_ok] at fills
      obtain ⟨more, added, fills⟩ := fills
      rw [fillGpu, bytes, added]
      change
        ∃ filled',
          (if more ≤ budget then _ else _) = Except.ok filled'
      split_ifs at fills ⊢ with fits
      · obtain ⟨⟨total, placed⟩, onward, -⟩ := bind_eq_ok.mp fills
        obtain ⟨⟨total', placed'⟩, onward'⟩ :=
          induction rest.symm onward
        exact ⟨_, bind_eq_ok.mpr ⟨_, onward', rfl⟩⟩
      · obtain ⟨⟨total, placed⟩, onward, -⟩ := bind_eq_ok.mp fills
        obtain ⟨⟨total', placed'⟩, onward'⟩ :=
          induction rest.symm onward
        exact ⟨_, bind_eq_ok.mpr ⟨_, onward', rfl⟩⟩

/-- The loop stays in range where all tensors together do. -/
theorem fillGpu_ok_of_sum
    {budget gpuBytes : Nat} {tensors : List TensorPlacement}
    (small :
      gpuBytes + (tensors.map TensorPlacement.bytes).sum < u64Limit) :
    ∃ filled, fillGpu budget gpuBytes tensors = .ok filled := by
  induction tensors generalizing gpuBytes with
  | nil => exact ⟨_, rfl⟩
  | cons tensor tensors induction =>
      rw [List.map_cons, List.sum_cons] at small
      have added :
          add u64Limit gpuBytes tensor.bytes =
            .ok (gpuBytes + tensor.bytes) :=
        add_eq_ok.mpr ⟨by omega, rfl⟩
      rw [fillGpu, added]
      change
        ∃ filled,
          (if gpuBytes + tensor.bytes ≤ budget then _ else _) =
            Except.ok filled
      split_ifs with fits
      · obtain ⟨filled, onward⟩ :=
          @induction (gpuBytes + tensor.bytes) (by omega)
        exact ⟨_, bind_eq_ok.mpr ⟨_, onward, rfl⟩⟩
      · obtain ⟨filled, onward⟩ := @induction gpuBytes (by omega)
        exact ⟨_, bind_eq_ok.mpr ⟨_, onward, rfl⟩⟩

/-- The sums of a plan stay in range. -/
structure InRange (desc : Descriptor) (budget reserved : Nat) : Prop where
  reserves : reserved < u64Limit
  fills : ∃ filled, fillGpu budget 0 (sorted desc) = .ok filled
  cpu :
    Greedy.refused TensorPlacement.bytes (packing desc budget) < u64Limit
  gpu :
    Greedy.taken TensorPlacement.bytes (packing desc budget) + reserved <
      u64Limit
  need :
    Greedy.refused TensorPlacement.bytes (packing desc budget) +
        (if Greedy.taken TensorPlacement.bytes (packing desc budget) = 0
          then reserved
          else 0) <
      u64Limit

/-- The planner returns a plan exactly if everything stays in range. -/
theorem planPlacement_ok_iff
    {floats : Floats} {desc : Descriptor} {config : PlannerConfig} :
    (∃ result, planPlacement floats desc config = .ok result) ↔
      ∃ compute kv,
        estimateCompute floats desc config.nUbatch = .ok compute ∧
          estimateKv floats desc config.ctxLen config.kvType = .ok kv ∧
          InRange desc
            (config.weightBudget
              (config.reserved compute.computeBytes kv.kvBytes))
            (config.reserved compute.computeBytes kv.kvBytes) := by
  have scratch := config.sum_reserved
  constructor
  · rintro ⟨result, planned⟩
    simp only [planPlacement, bind_eq_ok] at planned
    obtain ⟨compute, computed, kv, estimated, reserved, reserves,
      ⟨gpuBytes, tensors⟩, filled, cpuBytes, cpu, gpuTotal, total, beside,
      besides, cpuNeed, need, -⟩ := planned
    refine ⟨compute, kv, computed, estimated, ?_⟩
    rw [sum_eq_ok u64Limit_pos, scratch] at reserves
    obtain ⟨small, rfl⟩ := reserves
    obtain ⟨gpu, placed⟩ := fillGpu_eq (sorted_unplaced desc) filled
    rw [Nat.zero_add] at gpu
    subst gpu placed
    rw [sum_eq_ok u64Limit_pos, refused_eq_filter] at cpu
    obtain ⟨cpuSmall, rfl⟩ := cpu
    rw [sum_eq_ok u64Limit_pos, List.sum_cons, scratch] at total
    have aside := besideWeights_eq besides
    rw [scratch] at aside
    subst aside
    exact
      { reserves := small
        fills := ⟨_, filled⟩
        cpu := cpuSmall
        gpu := total.1
        need := (add_eq_ok.mp need).1 }
  · rintro ⟨compute, kv, computed, estimated, range⟩
    obtain ⟨⟨gpuBytes, tensors⟩, filled⟩ := range.fills
    obtain ⟨gpu, placed⟩ := fillGpu_eq (sorted_unplaced desc) filled
    rw [Nat.zero_add] at gpu
    subst gpu placed
    have besides :=
      besideWeights_ok
        (Greedy.taken TensorPlacement.bytes
          (packing desc
            (config.weightBudget
              (config.reserved compute.computeBytes kv.kvBytes))))
        ((scratch compute.computeBytes kv.kvBytes).trans_lt range.reserves)
    rw [scratch] at besides
    simp only [planPlacement, bind_eq_ok]
    refine
      ⟨_, compute, computed, kv, estimated, _,
        (sum_eq_ok u64Limit_pos).mpr ⟨?_, scratch _ _⟩, (_, _), filled, _,
        (sum_eq_ok u64Limit_pos).mpr ⟨?_, refused_eq_filter _⟩, _,
        (sum_eq_ok u64Limit_pos).mpr ⟨?_, rfl⟩, _, besides, _,
        add_eq_ok.mpr ⟨range.need, rfl⟩, rfl⟩
    · rw [scratch]
      exact range.reserves
    · rw [refused_eq_filter]
      exact range.cpu
    · rw [List.sum_cons, scratch]
      exact range.gpu

end Runa.Fit.Planner
