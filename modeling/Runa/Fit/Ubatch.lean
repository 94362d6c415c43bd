import Runa.Fit.Safety
import Runa.Search.Bisection

/-!
# The micro-batch

`recommend_ubatch` of `runa-fit/src/compute.rs`: a bisection between one and
the vocabulary, or 32768 where that is less, for the largest micro-batch whose
compute buffer fits.  The estimate grows with the micro-batch, so that it is
the largest.
-/

namespace Runa.Fit.Ubatch

open Runa.Fit.Estimate
open Runa.Fit.Planner (smallModel)
open Runa.Fit.Safety
open Runa.Search.Bisection
open Runa.Word.Checked

/-- The largest micro-batch that is tried. -/
def ceiling (desc : Descriptor) : Nat :=
  min desc.nVocab 32768

/-- `est.compute_bytes <= available_bytes` -/
def affordable (floats : Floats) (desc : Descriptor) (available mid : Nat) :
    Result Bool := do
  let est ← estimateCompute floats desc mid
  return decide (est.computeBytes ≤ available)

/-- Micro-batch size recommendation based on available memory. -/
def recommendUbatch (floats : Floats) (desc : Descriptor) (available : Nat) :
    Result Nat :=
  search (affordable floats desc available) 1 (ceiling desc)

/-- The compute buffer of a micro-batch is at most what is available. -/
def Fits (floats : Floats) (desc : Descriptor) (available n : Nat) : Prop :=
  ∃ est, estimateCompute floats desc n = .ok est ∧
    est.computeBytes ≤ available

section

variable {floats : Floats} {desc : Descriptor} {available : Nat}

theorem affordable_iff {n : Nat} :
    affordable floats desc available n = .ok true ↔
      Fits floats desc available n := by
  rw [affordable, bind_eq_ok]
  constructor
  · rintro ⟨est, estimated, small⟩
    exact ⟨est, estimated, of_decide_eq_true (pure_eq_ok.mp small)⟩
  · rintro ⟨est, estimated, small⟩
    exact ⟨est, estimated, pure_eq_ok.mpr (decide_eq_true small)⟩

/-- A micro-batch fits if its buffer, computed without bounds, is in range
and small enough. -/
theorem fits_iff {n : Nat} :
    Fits floats desc available n ↔
      ComputeInRange desc n ∧
        floats.safety (computeRaw desc n) ≤ available := by
  rw [Fits]
  constructor
  · rintro ⟨est, estimated, small⟩
    rcases estimateCompute_eq_ok.mp estimated with ⟨range, rfl⟩
    exact ⟨range, small⟩
  · rintro ⟨range, small⟩
    exact ⟨computeEstimate floats desc n,
      estimateCompute_eq_ok.mpr ⟨range, rfl⟩, small⟩

/-- What is smaller than a micro-batch that fits does so too. -/
theorem Fits.of_le (monotone : Monotone floats.safety) {small large : Nat}
    (fits : Fits floats desc available large) (atMost : small ≤ large) :
    Fits floats desc available small := by
  rcases fits_iff.mp fits with ⟨range, most⟩
  apply fits_iff.mpr
  constructor
  · exact range.of_le atMost
  · exact (monotone (computeRaw_mono desc atMost)).trans most

/--
The search ends with a micro-batch that fits, or with one, and no larger one
of the range fits.
-/
theorem recommendUbatch_greatest (monotone : Monotone floats.safety)
    (range : ComputeInRange desc (ceiling desc)) (available : Nat) :
    ∃ ubatch, recommendUbatch floats desc available = .ok ubatch ∧
      (Fits floats desc available ubatch ∨ ubatch = 1) ∧
        ∀ n, ubatch < n → n ≤ ceiling desc →
          ¬ Fits floats desc available n := by
  have answers : ∀ n, 1 < n → n ≤ ceiling desc →
      ∃ answer, affordable floats desc available n = .ok answer := by
    intro n _ within
    have estimated := estimateCompute_eq_ok.mpr
      ⟨range.of_le within, (rfl : computeEstimate floats desc n = _)⟩
    exact ⟨_, bind_eq_ok.mpr ⟨_, estimated, rfl⟩⟩
  rcases search_ok answers with ⟨ubatch, ends⟩
  refine ⟨ubatch, ends, ?_⟩
  rcases Nat.lt_or_ge (ceiling desc) 1 with empty | ordered
  · -- Without a vocabulary nothing is tried.
    rw [search, dif_neg (by omega)] at ends
    cases ends
    exact ⟨Or.inr rfl, fun n above within => absurd above (by omega)⟩
  · constructor
    · by_cases one : ubatch = 1
      · exact Or.inr one
      · exact Or.inl
          (affordable_iff.mp ((search_spec ordered ends).2.1 one))
    · intro n above within fits
      apply search_greatest ordered ends _ above within
        (affordable_iff.mpr fits)
      intro small large _ atMost _ passes
      exact affordable_iff.mpr
        (Fits.of_le monotone (affordable_iff.mp passes) atMost)

end

/-- A model of 24 layers and a vocabulary of 151936. -/
def qwen2 : Descriptor :=
  { smallModel with
    nLayer := 24
    nEmbd := 896
    nHead := 14
    nHeadKv := 2
    headDim := 64
    nVocab := 151936 }

theorem computeInRange_qwen2 : ComputeInRange qwen2 (ceiling qwen2) := by
  have estimated : estimateCompute .exact qwen2 (ceiling qwen2) =
      .ok (computeEstimate .exact qwen2 (ceiling qwen2)) := by
    decide +kernel
  exact (estimateCompute_eq_ok.mp estimated).1

theorem recommendUbatch_qwen2 :
    ∃ ubatch, recommendUbatch .exact qwen2 (512 * 1024 * 1024) = .ok ubatch ∧
      (Fits .exact qwen2 (512 * 1024 * 1024) ubatch ∨ ubatch = 1) ∧
        ∀ n, ubatch < n → n ≤ ceiling qwen2 →
          ¬ Fits .exact qwen2 (512 * 1024 * 1024) n := by
  refine recommendUbatch_greatest ?_ computeInRange_qwen2 _
  intro small large atMost
  exact Nat.div_le_div_right (Nat.mul_le_mul_right 115 atMost)

end Runa.Fit.Ubatch
