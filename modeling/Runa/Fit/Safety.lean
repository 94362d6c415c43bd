import Runa.Fit.Accounts
import Runa.Fit.CheckFit

/-!
# Headers that the fit check survives

A header is read with every access checked, but what it says is computed with
as it stands.  For a header that parses, this module says exactly when the
descriptor and the fit check have a value: each step of them is in range or
it is not, and the value it has in range is that over natural numbers.
-/

namespace Runa.Fit.Safety

open Runa.Stream.Utf8
open Runa.Word.Checked
open Runa.Packing
open Runa.Fit.GgmlTypes
open Runa.Fit.Estimate
open Runa.Fit.Gguf
open Runa.Fit.Descriptors
open Runa.Fit.Accounts
open Runa.Fit.Planner
open Runa.Fit.CheckFit

/-! ## The compute buffer -/

/-- The factors of the parts of the compute buffer, in their order. -/
def computeParts (desc : Descriptor) (nUbatch : Nat) : List (List Nat) :=
  [[nUbatch, desc.nEmbd, 2, 2],
    [nUbatch, desc.nEmbd, 4, desc.nLayer],
    [nUbatch, desc.nHead, desc.headDim, 2, desc.nLayer],
    [nUbatch, desc.nEmbd * 4, 2, desc.nLayer]]

/-- The bytes of the compute buffer before the safety factor. -/
def computeRaw (desc : Descriptor) (nUbatch : Nat) : Nat :=
  ((computeParts desc nUbatch).map List.prod).sum +
    [nUbatch, desc.nVocab, 2].prod / desc.nEmbd

/-- The sizes of the compute buffer stay in range. -/
structure ComputeInRange (desc : Descriptor) (nUbatch : Nat) : Prop where
  width : 0 < desc.nEmbd
  feedForward : desc.nEmbd * 4 < u64Limit
  parts : ∀ part ∈ computeParts desc nUbatch, Multiplies u64Limit part
  vocab : Multiplies u64Limit [nUbatch, desc.nVocab, 2]
  raw : computeRaw desc nUbatch < u64Limit

/-- The compute buffer over natural numbers. -/
def computeEstimate
    (floats : Floats) (desc : Descriptor) (nUbatch : Nat) :
    ComputeEstimate where
  computeBytes := floats.safety (computeRaw desc nUbatch)
  computeBytesRaw := computeRaw desc nUbatch
  nUbatch := nUbatch

theorem estimateCompute_eq_ok
    {floats : Floats} {desc : Descriptor} {nUbatch : Nat}
    {estimate : ComputeEstimate} :
    estimateCompute floats desc nUbatch = .ok estimate ↔
      ComputeInRange desc nUbatch ∧
        computeEstimate floats desc nUbatch = estimate := by
  simp only [estimateCompute, bind_eq_ok, mul_eq_ok, product_eq_ok,
    div_eq_ok, sum_eq_ok u64Limit_pos]
  have raw :
      [[nUbatch, desc.nEmbd, 2, 2].prod,
          [nUbatch, desc.nEmbd, 4, desc.nLayer].prod,
          [nUbatch, desc.nHead, desc.headDim, 2, desc.nLayer].prod,
          [nUbatch, desc.nEmbd * 4, 2, desc.nLayer].prod,
          [nUbatch, desc.nVocab, 2].prod / desc.nEmbd].sum =
        computeRaw desc nUbatch := by
    simp only [computeRaw, computeParts, List.map_cons, List.map_nil,
      List.sum_cons, List.sum_nil]
    omega
  constructor
  · rintro ⟨_, ⟨feedForward, rfl⟩, _, ⟨activations, rfl⟩, _, ⟨matmul, rfl⟩,
      _, ⟨attention, rfl⟩, _, ⟨ffn, rfl⟩, _, ⟨vocab, rfl⟩, _, ⟨width, rfl⟩,
      _, ⟨small, rfl⟩, ends⟩
    rw [raw] at small ends
    refine ⟨?_, Except.ok.inj ends⟩
    exact
      { width := Nat.pos_of_ne_zero width
        feedForward := feedForward
        parts := by
          simp only [computeParts, List.forall_mem_cons]
          exact ⟨activations, matmul, attention, ffn, by simp⟩
        vocab := vocab
        raw := small }
  · rintro ⟨range, rfl⟩
    have parts := range.parts
    simp only [computeParts, List.forall_mem_cons] at parts
    obtain ⟨activations, matmul, attention, ffn, -⟩ := parts
    refine
      ⟨_, ⟨range.feedForward, rfl⟩, _, ⟨activations, rfl⟩, _, ⟨matmul, rfl⟩,
        _, ⟨attention, rfl⟩, _, ⟨ffn, rfl⟩, _, ⟨range.vocab, rfl⟩, _,
        ⟨range.width.ne', rfl⟩, _, ⟨?_, raw⟩, rfl⟩
    rw [raw]
    exact range.raw

/-- A larger micro-batch needs no less. -/
theorem computeRaw_mono (desc : Descriptor) : Monotone (computeRaw desc) := by
  intro small large atMost
  have each : ∀ factors : List Nat,
      (small :: factors).prod ≤ (large :: factors).prod := by
    intro factors
    rw [List.prod_cons, List.prod_cons]
    exact Nat.mul_le_mul_right _ atMost
  have vocab := Nat.div_le_div_right (c := desc.nEmbd)
    (each [desc.nVocab, 2])
  simp only [computeRaw, computeParts, List.map_cons, List.map_nil,
    List.sum_cons, List.sum_nil]
  gcongr
  · exact each _
  · exact each _
  · exact each _
  · exact each _

/-- The sizes of a smaller micro-batch are in range. -/
theorem ComputeInRange.of_le {desc : Descriptor} {small large : Nat}
    (range : ComputeInRange desc large) (atMost : small ≤ large) :
    ComputeInRange desc small := by
  have parts := range.parts
  constructor
  · exact range.width
  · exact range.feedForward
  · simp only [computeParts, List.forall_mem_cons] at parts ⊢
    rcases parts with ⟨activations, matmul, attention, ffn, -⟩
    exact ⟨activations.of_le atMost, matmul.of_le atMost,
      attention.of_le atMost, ffn.of_le atMost, nofun⟩
  · exact range.vocab.of_le atMost
  · exact (computeRaw_mono desc atMost).trans_lt range.raw

/-! ## The KV cache -/

/-- The elements that a layer keeps for a token. -/
def layerElements (desc : Descriptor) : Nat :=
  if 0 < desc.kvLoraRank then 2 * (desc.kvLoraRank + desc.headDim)
  else [2, desc.nHeadKv, desc.headDim].prod

/-- The context of a layer is a window. -/
def Windowed (desc : Descriptor) (ctxLen : Nat) : Prop :=
  ¬ 0 < desc.kvLoraRank ∧
    0 < desc.slidingWindow ∧ desc.slidingWindow < ctxLen

instance (desc : Descriptor) (ctxLen : Nat) :
    Decidable (Windowed desc ctxLen) :=
  inferInstanceAs (Decidable (_ ∧ _ ∧ _))

/-- The bytes of a layer. -/
def layerBytes
    (floats : Floats) (desc : Descriptor) (ctxLen : Nat)
    (kvType : Text) : Nat :=
  floats.kvBytes kvType
    (if Windowed desc ctxLen then desc.slidingWindow else ctxLen)
    (layerElements desc)

/-- The elements of a layer stay in range. -/
def LayerInRange (desc : Descriptor) : Prop :=
  if 0 < desc.kvLoraRank then layerElements desc < u64Limit
  else Multiplies u64Limit [2, desc.nHeadKv, desc.headDim]

theorem layerKv_eq_ok
    {floats : Floats} {desc : Descriptor} {ctxLen : Nat} {kvType : Text}
    {layer : Nat × Bool} :
    layerKv floats desc ctxLen kvType = .ok layer ↔
      LayerInRange desc ∧
        (layerBytes floats desc ctxLen kvType,
            decide (Windowed desc ctxLen)) =
          layer := by
  by_cases latent : 0 < desc.kvLoraRank
  · simp only [layerKv, LayerInRange, layerBytes, layerElements, Windowed,
      latent, if_true, not_true, false_and, if_false, decide_false,
      bind_eq_ok, add_eq_ok, mul_eq_ok, pure_eq_ok]
    constructor
    · rintro ⟨_, ⟨-, rfl⟩, _, ⟨small, rfl⟩, ends⟩
      exact ⟨small, ends⟩
    · rintro ⟨small, ends⟩
      exact ⟨_, ⟨by omega, rfl⟩, _, ⟨small, rfl⟩, ends⟩
  · simp only [layerKv, LayerInRange, layerBytes, layerElements, Windowed,
      latent, if_false, not_false_iff, true_and, bind_eq_ok,
      product_eq_ok, pure_eq_ok, decide_eq_true_eq]
    constructor
    · rintro ⟨_, ⟨small, rfl⟩, ends⟩
      exact ⟨small, ends⟩
    · rintro ⟨small, ends⟩
      exact ⟨_, ⟨small, rfl⟩, ends⟩

/-- The sizes of the KV cache stay in range. -/
structure KvInRange
    (floats : Floats) (desc : Descriptor) (ctxLen : Nat)
    (kvType : Text) : Prop where
  layer : 0 < desc.nLayer → LayerInRange desc
  total :
    desc.nLayer * layerBytes floats desc ctxLen kvType < u64Limit

/-- The estimate after some layers more. -/
def withLayers
    (estimate : KvEstimate) (count bytes : Nat) (windowed : Bool) :
    KvEstimate :=
  { estimate with
    kvBytes := estimate.kvBytes + count * bytes
    kvBytesPerLayer :=
      estimate.kvBytesPerLayer ++ List.replicate count bytes
    nSwaLayers :=
      estimate.nSwaLayers + if windowed then count else 0 }

/-- The KV cache over natural numbers. -/
def kvEstimate
    (floats : Floats) (desc : Descriptor) (ctxLen : Nat)
    (kvType : Text) : KvEstimate :=
  withLayers
    { kvBytes := 0
      kvBytesPerLayer := []
      effectiveCtx := ctxLen
      usedMla := decide (0 < desc.kvLoraRank)
      nSwaLayers := 0 }
    desc.nLayer (layerBytes floats desc ctxLen kvType)
    (decide (Windowed desc ctxLen))

/-- A round of the loop is one layer more. -/
theorem withLayers_succ
    (estimate : KvEstimate) (count bytes : Nat) (windowed : Bool) :
    withLayers
        { estimate with
          kvBytes := estimate.kvBytes + bytes
          kvBytesPerLayer := estimate.kvBytesPerLayer ++ [bytes]
          nSwaLayers :=
            if windowed then estimate.nSwaLayers + 1
            else estimate.nSwaLayers }
        count bytes windowed =
      withLayers estimate (count + 1) bytes windowed := by
  have total : (count + 1) * bytes = count * bytes + bytes :=
    Nat.succ_mul count bytes
  simp only [withLayers, KvEstimate.mk.injEq, List.replicate_succ,
    List.append_assoc, List.singleton_append, true_and]
  refine ⟨by omega, ?_⟩
  cases windowed with
  | true =>
      simp only [if_true]
      omega
  | false => rfl

/-- The loop over the layers, from any estimate in range. -/
theorem layers_eq_ok
    {floats : Floats} {desc : Descriptor} {ctxLen : Nat} {kvType : Text}
    {rounds : List Nat} {start estimate : KvEstimate}
    (below : start.kvBytes < u64Limit) :
    rounds.foldlM
          (fun estimate _ => do
            let (bytes, windowed) ← layerKv floats desc ctxLen kvType
            let total ← add u64Limit estimate.kvBytes bytes
            .ok
              { estimate with
                kvBytes := total
                kvBytesPerLayer := estimate.kvBytesPerLayer ++ [bytes]
                nSwaLayers :=
                  if windowed then estimate.nSwaLayers + 1
                  else estimate.nSwaLayers })
          start =
        .ok estimate ↔
      (0 < rounds.length → LayerInRange desc) ∧
        start.kvBytes +
            rounds.length * layerBytes floats desc ctxLen kvType <
          u64Limit ∧
        withLayers start rounds.length
            (layerBytes floats desc ctxLen kvType)
            (decide (Windowed desc ctxLen)) =
          estimate := by
  induction rounds generalizing start with
  | nil =>
      have same :
          withLayers start 0 (layerBytes floats desc ctxLen kvType)
              (decide (Windowed desc ctxLen)) =
            start := by
        simp [withLayers]
      simp [below, same]
  | cons round rounds induction =>
      have total :
          (rounds.length + 1) * layerBytes floats desc ctxLen kvType =
            rounds.length * layerBytes floats desc ctxLen kvType +
              layerBytes floats desc ctxLen kvType :=
        Nat.succ_mul _ _
      simp only [List.foldlM_cons, bind_eq_ok, layerKv_eq_ok, add_eq_ok,
        List.length_cons]
      constructor
      · rintro ⟨middle, ⟨_, ⟨range, rfl⟩, _, ⟨small, rfl⟩, ends⟩, onward⟩
        cases ends
        obtain ⟨-, bounded, rfl⟩ := (induction small).mp onward
        rw [withLayers_succ]
        dsimp only at bounded
        exact ⟨fun _ => range, by omega, rfl⟩
      · rintro ⟨range, bounded, rfl⟩
        have small :
            start.kvBytes + layerBytes floats desc ctxLen kvType <
              u64Limit := by
          omega
        refine
          ⟨_, ⟨_, ⟨range (Nat.succ_pos _), rfl⟩, _, ⟨small, rfl⟩, rfl⟩,
            (induction small).mpr ⟨?_, ?_, withLayers_succ _ _ _ _⟩⟩
        · exact fun _ => range (Nat.succ_pos _)
        · dsimp only
          omega

theorem estimateKv_eq_ok
    {floats : Floats} {desc : Descriptor} {ctxLen : Nat} {kvType : Text}
    {estimate : KvEstimate} :
    estimateKv floats desc ctxLen kvType = .ok estimate ↔
      KvInRange floats desc ctxLen kvType ∧
        kvEstimate floats desc ctxLen kvType = estimate := by
  rw [estimateKv, layers_eq_ok u64Limit_pos, List.length_range,
    Nat.zero_add, ← and_assoc]
  refine and_congr_left fun _ => ?_
  exact ⟨fun ⟨layer, total⟩ => ⟨layer, total⟩,
    fun range => ⟨range.layer, range.total⟩⟩

/-! ## The plan -/

/-- The sums of a plan stay in range. -/
structure PlanInRange
    (desc : Descriptor) (budget reserved : Nat) : Prop where
  reserves : reserved < u64Limit
  /-- nothing is placed on the GPU, so all of it is needed beside -/
  beside :
    (∀ entry ∈ desc.tensorBytes, entry.2.1 = 0 ∨ budget < entry.2.1) →
      desc.weightBytes + reserved < u64Limit

theorem packing_taken_eq_zero_iff {desc : Descriptor} {budget : Nat} :
    Greedy.taken TensorPlacement.bytes (packing desc budget) = 0 ↔
      ∀ entry ∈ desc.tensorBytes, entry.2.1 = 0 ∨ budget < entry.2.1 := by
  rw [packing, Greedy.taken_eq_zero_iff]
  simp only [Nat.zero_add]
  constructor
  · intro none entry listed
    have member : collect entry ∈ sorted desc :=
      (sorted_perm desc).mem_iff.mpr (List.mem_map_of_mem listed)
    exact none _ member
  · intro none tensor member
    obtain ⟨entry, listed, rfl⟩ :=
      List.mem_map.mp ((sorted_perm desc).mem_iff.mp member)
    exact none entry listed

/-- All that is left to go wrong is what is reserved. -/
theorem inRange_iff
    {desc : Descriptor} {config : PlannerConfig} {reserved : Nat}
    (weights : desc.weightBytes < u64Limit)
    (vram : config.vramBytes < u64Limit) :
    InRange desc (config.weightBudget reserved) reserved ↔
      PlanInRange desc (config.weightBudget reserved) reserved := by
  have total := @packing_total desc (config.weightBudget reserved)
  have within := @packing_within desc (config.weightBudget reserved)
  constructor
  · intro range
    refine ⟨range.reserves, ?_⟩
    intro none
    have nothing := packing_taken_eq_zero_iff.mpr none
    have need := range.need
    rw [if_pos nothing] at need
    omega
  · intro range
    refine
      { reserves := range.reserves
        fills := fillGpu_ok_of_sum (by rwa [Nat.zero_add, sorted_weightBytes])
        cpu := by omega
        gpu := ?_
        need := ?_ }
    · have reserves := range.reserves
      have budget :
          config.weightBudget reserved =
            config.vramBytes - config.vramMargin - reserved :=
        rfl
      omega
    · split_ifs with nothing
      · have beside :=
          range.beside (packing_taken_eq_zero_iff.mp nothing)
        omega
      · omega

/-! ## The check -/

/-- The bytes of weights that a token reads, over natural numbers. -/
def activeBytes (floats : Floats) (desc : Descriptor) : Nat :=
  if 0 < desc.nExpert then
    desc.weightBytesDense +
      floats.expertShare desc.weightBytesExpert desc.nExpertUsed
        desc.nExpert +
      desc.weightBytesEmbedOut
  else desc.weightBytesTotal

theorem speedInRange_iff
    {floats : Floats} {desc : Descriptor} {kv : KvEstimate} :
    SpeedInRange floats desc kv ↔
      activeBytes floats desc + kv.kvBytes / 2 < u64Limit := by
  unfold SpeedInRange activeWeightBytes activeBytes
  split_ifs with experts
  · simp only [sum_eq_ok u64Limit_pos, List.sum_cons, List.sum_nil]
    constructor
    · rintro ⟨_, ⟨-, rfl⟩, small⟩
      omega
    · intro small
      exact ⟨_, ⟨by omega, rfl⟩, by omega⟩
  · simp

variable {Hw : Type}

/-- The tokens of the media, over natural numbers. -/
def mediaTokens (media : MediaFit) : Nat :=
  saturatingMul u64Limit media.frames media.tokensPerFrame +
    saturatingMul u64Limit
      (min ⌈media.audioSeconds⌉.toNat (u64Limit - 1))
      media.tokensPerAudioSecond

/-- What is reserved beside the weights, over natural numbers. -/
def reservedFor
    (floats : Floats) (desc : Descriptor) (config : FitConfig Hw) : Nat :=
  (config.plannerFor desc).reserved
    (floats.safety (computeRaw desc config.planner.nUbatch))
    (desc.nLayer *
      layerBytes floats desc config.planner.ctxLen config.planner.kvType)

/-- Every step of a fit check stays in range. -/
structure FitInRange
    (floats : Floats) (desc : Descriptor) (config : FitConfig Hw) :
    Prop where
  media : mediaTokens config.media < u64Limit
  compute : ComputeInRange desc config.planner.nUbatch
  kv :
    KvInRange floats desc config.planner.ctxLen config.planner.kvType
  plan :
    PlanInRange desc
      (config.planner.weightBudget (reservedFor floats desc config))
      (reservedFor floats desc config)
  speed :
    activeBytes floats desc +
        desc.nLayer *
            layerBytes floats desc config.planner.ctxLen
              config.planner.kvType /
          2 <
      u64Limit

section Checks

variable {floats : Floats}
variable {speed : Descriptor → KvEstimate → Nat → Hw → Rat}
variable {desc : Descriptor} {config : FitConfig Hw}

theorem kvEstimate_kvBytes {ctxLen : Nat} {kvType : Text} :
    (kvEstimate floats desc ctxLen kvType).kvBytes =
      desc.nLayer * layerBytes floats desc ctxLen kvType :=
  Nat.zero_add _

/-- The plan of a fit check, over natural numbers. -/
def planFor
    (floats : Floats) (desc : Descriptor) (config : FitConfig Hw) :
    PlacementPlan :=
  plan desc (config.plannerFor desc)
    (floats.safety (computeRaw desc config.planner.nUbatch))
    (desc.nLayer *
      layerBytes floats desc config.planner.ctxLen config.planner.kvType)

/-- What a report says of the plan. -/
theorem checkFit_report {report : FitReport}
    (checked : checkFit floats speed desc config = .ok report) :
    report.plan = planFor floats desc config ∧
      report.verdict =
        verdictOf desc
          (decide (config.planner.ctxLen < mediaTokens config.media))
          report.plan := by
  obtain ⟨tokens, compute, kv, need, computed, estimated, planned,
    verdict⟩ := checkFit_eq checked
  obtain ⟨-, rfl⟩ := estimateCompute_eq_ok.mp computed
  obtain ⟨-, rfl⟩ := estimateKv_eq_ok.mp estimated
  obtain ⟨-, rfl⟩ := add_eq_ok.mp need
  rw [kvEstimate_kvBytes] at planned
  exact ⟨planned, verdict⟩

/-- A fit check has a report exactly if every step stays in range. -/
theorem checkFit_ok_iff_ranges :
    (∃ report, checkFit floats speed desc config = .ok report) ↔
      mediaTokens config.media < u64Limit ∧
        ComputeInRange desc config.planner.nUbatch ∧
        KvInRange floats desc config.planner.ctxLen
          config.planner.kvType ∧
        InRange desc
          (config.planner.weightBudget (reservedFor floats desc config))
          (reservedFor floats desc config) ∧
        activeBytes floats desc +
            desc.nLayer *
                layerBytes floats desc config.planner.ctxLen
                  config.planner.kvType /
              2 <
          u64Limit := by
  have reserved :
      (config.plannerFor desc).reserved
          (computeEstimate floats desc
            (config.plannerFor desc).nUbatch).computeBytes
          (kvEstimate floats desc (config.plannerFor desc).ctxLen
            (config.plannerFor desc).kvType).kvBytes =
        reservedFor floats desc config := by
    rw [reservedFor, kvEstimate_kvBytes]
    rfl
  rw [checkFit_ok_iff, planPlacement_ok_iff]
  simp only [estimateCompute_eq_ok, estimateKv_eq_ok]
  constructor
  · rintro ⟨⟨_, media⟩, ⟨_, _, ⟨compute, rfl⟩, ⟨kv, rfl⟩, plan⟩, _,
      ⟨-, rfl⟩, speed⟩
    rw [reserved] at plan
    rw [speedInRange_iff, kvEstimate_kvBytes] at speed
    exact ⟨(add_eq_ok.mp media).1, compute, kv, plan, speed⟩
  · rintro ⟨media, compute, kv, plan, speed⟩
    refine
      ⟨⟨_, add_eq_ok.mpr ⟨media, rfl⟩⟩,
        ⟨_, _, ⟨compute, rfl⟩, ⟨kv, rfl⟩, ?_⟩, _, ⟨kv, rfl⟩, ?_⟩
    · rw [reserved]
      exact plan
    · rw [speedInRange_iff, kvEstimate_kvBytes]
      exact speed

/-- Weights that add up leave less to go wrong. -/
theorem checkFit_ok_iff_inRange
    (weights : desc.weightBytes < u64Limit)
    (vram : config.planner.vramBytes < u64Limit) :
    (∃ report, checkFit floats speed desc config = .ok report) ↔
      FitInRange floats desc config := by
  rw [checkFit_ok_iff_ranges, inRange_iff weights vram]
  constructor
  · rintro ⟨media, compute, kv, plan, speed⟩
    exact ⟨media, compute, kv, plan, speed⟩
  · intro range
    exact
      ⟨range.media, range.compute, range.kv, range.plan, range.speed⟩

end Checks

/-! ## The header -/

/-- Parse a header, describe it and check whether the model fits. -/
def fitBuffer
    (floats : Floats)
    (speed : Descriptor → KvEstimate → Nat → Hw → Rat)
    (buffer : List UInt8) (config : FitConfig Hw) :
    Result (Except HeaderError FitReport) := do
  match ← fromBuffer buffer with
  | .error error => return .error error
  | .ok desc => return .ok (← checkFit floats speed desc config)

/-- Sizes that a configuration has in practice. -/
structure Bounded (config : FitConfig Hw) : Prop where
  nUbatch : config.planner.nUbatch < 2 ^ 32
  ctxLen : config.planner.ctxLen < 2 ^ 32
  frames : config.media.frames < 2 ^ 32
  vramBytes : config.planner.vramBytes < 2 ^ 48
  ramBytes : config.planner.ramBytes < 2 ^ 48
  vramMargin : config.planner.vramMargin < 2 ^ 48
  mmprojBytes : config.planner.mmprojBytes < 2 ^ 48
  loraBytes : config.planner.loraBytes < 2 ^ 48
  encoderComputeBytes : config.planner.encoderComputeBytes < 2 ^ 48

/-- A header that parses and has what is required stays in range. -/
def HeaderInRange
    (floats : Floats) (buffer : List UInt8) (config : FitConfig Hw) :
    Prop :=
  ∀ reader,
    Reader.parse buffer = .ok reader →
      ∀ fields,
        required reader = .ok fields →
          DescribeInRange reader fields ∧
            FitInRange floats (descriptorOf reader fields) config

theorem descriptorOf_weightBytes_lt
    {reader : Reader} {fields : Required}
    (range : DescribeInRange reader fields) :
    (descriptorOf reader fields).weightBytes < u64Limit := by
  have total := range.total
  have dense := kept_add_replaced .dense reader.tensors
  have expert := kept_add_replaced .expert reader.tensors
  have embedOut := kept_add_replaced .embedOut reader.tensors
  rw [weightBytes_eq_groups, descriptorOf_groupBytes,
    descriptorOf_groupBytes, descriptorOf_groupBytes]
  omega

/--
Reading a header and checking its fit has a value, which may be that the
header is rejected, exactly if all that is computed from it stays in range.
-/
theorem fitBuffer_ok_iff
    (floats : Floats)
    (speed : Descriptor → KvEstimate → Nat → Hw → Rat)
    (buffer : List UInt8) (config : FitConfig Hw)
    (bounded : Bounded config) :
    (∃ outcome, fitBuffer floats speed buffer config = .ok outcome) ↔
      HeaderInRange floats buffer config := by
  have vram : config.planner.vramBytes < u64Limit :=
    bounded.vramBytes.trans (by decide)
  rw [HeaderInRange, fitBuffer, fromBuffer]
  cases Reader.parse buffer with
  | error error => simp [pure, Except.pure, bind, Except.bind]
  | ok reader =>
      simp only [fromReader, Except.ok.injEq, forall_eq']
      cases required reader with
      | error error =>
          simp [pure, Except.pure, bind, Except.bind, Except.mapError]
      | ok fields =>
          simp only [Except.ok.injEq, forall_eq']
          constructor
          · rintro ⟨outcome, read⟩
            simp only [bind_eq_ok, pure_eq_ok] at read
            obtain ⟨_, ⟨_, ⟨desc, built, rfl⟩, rfl⟩, ends⟩ := read
            obtain ⟨range, rfl⟩ := describe_eq_ok.mp built
            obtain ⟨report, checked, -⟩ := bind_eq_ok.mp ends
            exact
              ⟨range,
                (checkFit_ok_iff_inRange
                  (descriptorOf_weightBytes_lt range) vram).mp
                  ⟨report, checked⟩⟩
          · rintro ⟨range, fits⟩
            obtain ⟨report, checked⟩ :=
              (checkFit_ok_iff_inRange
                (descriptorOf_weightBytes_lt range) vram).mpr fits
            simp only [bind_eq_ok, pure_eq_ok]
            exact
              ⟨_, _, ⟨_, ⟨_, describe_eq_ok.mpr ⟨range, rfl⟩, rfl⟩, rfl⟩,
                bind_eq_ok.mpr ⟨report, checked, rfl⟩⟩

/-- A configuration for concrete checks. -/
def plainCheck : FitConfig Unit := plainFit (smallConfig 5000)

theorem plainCheck_bounded : Bounded plainCheck := by
  constructor <;> decide

theorem fitBuffer_ok_twice :
    Bounded plainCheck ∧
      HeaderInRange Floats.exact twiceHeader.write plainCheck := by
  refine ⟨plainCheck_bounded, ?_⟩
  refine
    (fitBuffer_ok_iff .exact (fun _ _ _ _ => 0) twiceHeader.write
      plainCheck plainCheck_bounded).mp
      ?_
  have checks :
      ∃ desc,
        fromBuffer twiceHeader.write = .ok (.ok desc) ∧
          (checkFit .exact (fun _ _ _ _ => 0) desc plainCheck).isOk =
            true :=
    fromBuffer_of_map twiceHeader_parse (by decide +kernel)
  obtain ⟨desc, built, checks⟩ := checks
  cases checked : checkFit .exact (fun _ _ _ _ => 0) desc plainCheck with
  | error fault =>
      rw [checked] at checks
      cases checks
  | ok report =>
      exact
        ⟨.ok report,
          bind_eq_ok.mpr
            ⟨_, built, bind_eq_ok.mpr ⟨report, checked, rfl⟩⟩⟩

/-- The header of a model whose embeddings have no width. -/
def zeroHeader : Header := plainHeader 0 1 []

theorem zeroHeader_parse :
    Reader.parse zeroHeader.write =
      .ok
        { zeroHeader.reader with
          dataStart := roundUp zeroHeader.write.length } := by
  have counted : zeroHeader.Counted :=
    plainHeader_counted (by decide) (by simp)
  have short : zeroHeader.write.length < u64Limit := by
    decide +kernel
  have parsed := parse_write counted short []
  rwa [List.append_nil] at parsed

/-- The slice of the vocabulary is divided by the width. -/
theorem fitBuffer_divides_by_zero :
    Bounded plainCheck ∧
      fitBuffer .exact (fun _ _ _ _ => 0) zeroHeader.write plainCheck =
        .error .divideByZero := by
  refine ⟨plainCheck_bounded, ?_⟩
  have checks :
      ∃ desc,
        fromBuffer zeroHeader.write = .ok (.ok desc) ∧
          checkFit .exact (fun _ _ _ _ => 0) desc plainCheck =
            .error .divideByZero :=
    fromBuffer_of_map zeroHeader_parse (by decide +kernel)
  obtain ⟨desc, built, fault⟩ := checks
  simp only [fitBuffer, built, fault, bind, Except.bind]

end Runa.Fit.Safety
