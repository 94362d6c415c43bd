import Runa.Engine.Ngram
import Mathlib.Data.Rat.Defs
import Mathlib.Algebra.Order.Ring.Unbundled.Rat

/-!
# Sampling

The embedding of `runa-engine/src/sampling.rs`: the parameters of one
generation, the sampler chain they ask llama.cpp for, and the greedy path of
the kernel sampler (`runa_sample_token_f32` in `runa-kernels`).  Floating
point parameters are exact rationals; of them only the sign of the
temperature decides anything here.
-/

namespace Runa.Engine.Sampling

open Runa.Engine.Ngram

/-- Sampling parameters for one generation. -/
structure SamplingConfig where
  temperature : Rat
  topK : Int
  topP : Rat
  minP : Rat
  repeatPenalty : Rat
  repeatLastN : Int
  seed : UInt32
  kernelSampler : Bool
deriving DecidableEq, Repr

/-- The samplers a chain is built from. -/
inductive Stage where
  | penalties (lastN : Int) (repeated freq present : Rat)
  | greedy
  | temp (temperature : Rat)
  | topK (k : Int)
  | topP (p : Rat) (minKeep : Nat)
  | minP (p : Rat) (minKeep : Nat)
  | dist (seed : UInt32)
deriving DecidableEq, Repr

/-- The sampler chain of a configuration. -/
def SamplingConfig.build (config : SamplingConfig) : List Stage :=
  .penalties config.repeatLastN config.repeatPenalty 0 0 ::
    if config.temperature ≤ 0 then
      [.greedy]
    else
      [.temp config.temperature, .topK config.topK, .topP config.topP 1,
        .minP config.minP 1, .dist config.seed]

/-! ## The kernel sampler -/

section Kernel

variable {Logit : Type} [LinearOrder Logit]

/-- The loop of the greedy path, from an index on. -/
def bestFrom : List Logit → Nat → Nat → Logit → Nat
  | [], _, best, _ => best
  | logit :: logits, index, best, value =>
      if value < logit then bestFrom logits (index + 1) index logit
      else bestFrom logits (index + 1) best value

/--
`runa_sample_token_f32`: greedy without a temperature, otherwise a draw in
floating point arithmetic, here `draw`.
-/
def sampleToken
    (draw : SamplingConfig → List Logit → UInt32 → Token × UInt32)
    (config : SamplingConfig) (logits : List Logit) (seed : UInt32) :
    Token × UInt32 :=
  match logits with
  | [] => (0, seed)
  | logit :: rest =>
      if config.temperature ≤ 0 then (bestFrom rest 1 0 logit, seed)
      else draw config logits seed

theorem argmaxFrom_eq_bestFrom
    (logits : List Logit) (index best : Nat) (value : Logit) :
    argmaxFrom logits index best value =
      bestFrom logits index best value := by
  induction logits generalizing index best value with
  | nil => rfl
  | cons logit logits induction =>
      simp only [argmaxFrom, bestFrom, induction]

variable [OrderBot Logit]

/-- Without a temperature the kernel sampler is the verifier's arg max. -/
theorem sampleToken_greedy
    (draw : SamplingConfig → List Logit → UInt32 → Token × UInt32)
    {config : SamplingConfig} (greedy : config.temperature ≤ 0)
    (logits : List Logit) (seed : UInt32) :
    sampleToken draw config logits seed = (argmaxI32 logits, seed) := by
  cases logits with
  | nil => rfl
  | cons logit rest =>
      rw [sampleToken, if_pos greedy, argmaxI32, argmaxFrom]
      split_ifs with above
      · rw [argmaxFrom_eq_bestFrom]
      · have bottom : logit = ⊥ := not_bot_lt_iff.mp above
        rw [argmaxFrom_eq_bestFrom, bottom]

end Kernel

end Runa.Engine.Sampling
