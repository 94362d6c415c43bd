import Runa.Fit.GgmlTypes
import Runa.Stream.Utf8
import Mathlib.Data.List.Nodup

/-!
# Memory estimates

The embedding of the model descriptor of `runa-fit/src/descriptor.rs` and of
the estimators which the planner reserves memory by: `runa-fit/src/kv.rs` and
`runa-fit/src/compute.rs`.

Three steps of the fit check go through floating point, the safety factor of
the compute buffer, the bytes of a layer of the KV cache and the share of the
experts that a token reads; they are functions of whole numbers to whole
numbers and a parameter here (`Floats`).
-/

namespace Runa.Fit.Estimate

open Runa.Stream.Utf8
open Runa.Word.Checked
open Runa.Fit.GgmlTypes

/-! ## Descriptors -/

/-- Weight groups for the planner. -/
inductive WeightGroup where
  | dense
  | expert
  | embedOut
deriving DecidableEq, Repr

/-- An entry of the tensor map. -/
abbrev Entry := Text × Nat × WeightGroup

/--
Architecture parameters and the bytes of each tensor.  The hash map is a list
in the order of its iteration; a name is there once.
-/
structure Descriptor where
  arch : Text
  nLayer : Nat
  nEmbd : Nat
  nHead : Nat
  nHeadKv : Nat
  headDim : Nat
  nCtxTrain : Nat
  nVocab : Nat
  nVocabOut : Nat
  nExpert : Nat
  nExpertUsed : Nat
  slidingWindow : Nat
  kvLoraRank : Nat
  nRecurrent : Nat
  weightBytesDense : Nat
  weightBytesExpert : Nat
  weightBytesEmbedOut : Nat
  weightBytesTotal : Nat
  tensorBytes : List (Text × Nat × WeightGroup)
  distinct : (tensorBytes.map Prod.fst).Nodup
  version : Nat

/-- Bytes of all tensors. -/
def Descriptor.weightBytes (desc : Descriptor) : Nat :=
  (desc.tensorBytes.map fun entry => entry.2.1).sum

/-- The steps of the estimators that go through floating point. -/
structure Floats where
  /-- `(raw as f64 * 1.15) as u64` -/
  safety : Nat → Nat
  /-- `(ctx as f64 * (elements as f64 * bpe)) as u64`, by KV type -/
  kvBytes : Text → Nat → Nat → Nat
  /-- `(expert as f64 * (used as f64 / experts as f64)) as u64` -/
  expertShare : Nat → Nat → Nat → Nat

/-! ## The compute buffer -/

structure ComputeEstimate where
  computeBytes : Nat
  computeBytesRaw : Nat
  nUbatch : Nat
deriving DecidableEq, Repr

/-- Scratch memory for a micro-batch. -/
def estimateCompute
    (floats : Floats) (desc : Descriptor) (nUbatch : Nat) :
    Result ComputeEstimate := do
  let bpe := 2
  let ffnDim ← mul u64Limit desc.nEmbd 4
  let activations ← product u64Limit [nUbatch, desc.nEmbd, bpe, 2]
  let matmulScratch ←
    product u64Limit [nUbatch, desc.nEmbd, 4, desc.nLayer]
  let attnScratch ←
    product u64Limit [nUbatch, desc.nHead, desc.headDim, 2, desc.nLayer]
  let ffnScratch ← product u64Limit [nUbatch, ffnDim, 2, desc.nLayer]
  let vocab ← product u64Limit [nUbatch, desc.nVocab, bpe]
  let vocabSlice ← div vocab desc.nEmbd
  let raw ←
    sum u64Limit
      [activations, matmulScratch, attnScratch, ffnScratch, vocabSlice]
  .ok
    { computeBytes := floats.safety raw
      computeBytesRaw := raw
      nUbatch := nUbatch }

/-- Encoder scratch for sampled frames. -/
def estimateEncoderCompute (desc : Descriptor) (frames : Nat) : Nat :=
  if frames = 0 then 0
  else
    saturatingMul u64Limit
      (saturatingMul u64Limit
        (saturatingMul u64Limit frames desc.nEmbd) 4) 8

/-! ## The KV cache -/

structure KvEstimate where
  kvBytes : Nat
  kvBytesPerLayer : List Nat
  effectiveCtx : Nat
  usedMla : Bool
  nSwaLayers : Nat
deriving DecidableEq, Repr

/-- Bytes of one layer, and whether its context is a window. -/
def layerKv
    (floats : Floats) (desc : Descriptor) (ctxLen : Nat) (kvType : Text) :
    Result (Nat × Bool) :=
  if 0 < desc.kvLoraRank then do
    let width ← add u64Limit desc.kvLoraRank desc.headDim
    let elements ← mul u64Limit 2 width
    return (floats.kvBytes kvType ctxLen elements, false)
  else do
    let windowed :=
      decide (0 < desc.slidingWindow ∧ desc.slidingWindow < ctxLen)
    let ctx := if windowed then desc.slidingWindow else ctxLen
    let elements ← product u64Limit [2, desc.nHeadKv, desc.headDim]
    return (floats.kvBytes kvType ctx elements, windowed)

/-- The loop over the layers, all of which are alike. -/
def estimateKv
    (floats : Floats) (desc : Descriptor) (ctxLen : Nat) (kvType : Text) :
    Result KvEstimate :=
  (List.range desc.nLayer).foldlM
    (fun estimate _ => do
      let (bytes, windowed) ← layerKv floats desc ctxLen kvType
      let total ← add u64Limit estimate.kvBytes bytes
      .ok
        { estimate with
          kvBytes := total
          kvBytesPerLayer := estimate.kvBytesPerLayer ++ [bytes]
          nSwaLayers :=
            if windowed then estimate.nSwaLayers + 1
            else estimate.nSwaLayers })
    { kvBytes := 0
      kvBytesPerLayer := []
      effectiveCtx := ctxLen
      usedMla := decide (0 < desc.kvLoraRank)
      nSwaLayers := 0 }

/-- Exact rational arithmetic in place of floating point. -/
def Floats.exact : Floats where
  safety raw := raw * 115 / 100
  kvBytes kvType ctx elements :=
    if kvType = "f32".toList then ctx * elements * 4
    else if kvType = "f16".toList ∨ kvType = "bf16".toList then
      ctx * elements * 2
    else if kvType = "q8_0".toList then ctx * elements * 34 / 32
    else if kvType = "q4_0".toList ∨ kvType = "iq4_nl".toList then
      ctx * elements * 18 / 32
    else if kvType = "q4_1".toList then ctx * elements * 20 / 32
    else 0
  expertShare expert used experts := expert * used / experts

end Runa.Fit.Estimate
