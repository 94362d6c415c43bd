import Runa.Engine.Placements
import Runa.Fit.Descriptors
import Runa.Fit.Planner

/-!
# Expert tensors

The planner calls a tensor an expert by a part of its name, and the hybrid
placement pins it to the CPU by a regular expression.  The two disagree about
names with another word in the place of `up`, `down` or `gate`, and about the
chunked experts.
-/

namespace Runa.App.Experts

open Runa.Stream.Utf8
open Runa.Stream.Occurrence
open Runa.Engine.Placements
open Runa.Fit.Estimate
open Runa.Fit.Descriptors
open Runa.Fit.Planner

/-- Planner and loader agree on a name: it is an expert for both or for
neither, and it is the first to leave the GPU exactly if it is pinned to the
CPU. -/
structure Agrees (name : Text) : Prop where
  expert : classifyTensor name = .expert ↔ ffnExpsRegex.search name = true
  evicted : evictionPriority (classifyTensor name) = 0 ↔
    Placement.hybridMoe.onGpu name = false

/-- The experts of a layer. -/
def wholeExperts : List Text :=
  [".ffn_up_exps".toList, ".ffn_down_exps".toList, ".ffn_gate_exps".toList]

/-- The experts of a layer in chunks. -/
def chunkedExperts : List Text :=
  [".ffn_up_chexps".toList, ".ffn_down_chexps".toList,
    ".ffn_gate_chexps".toList]

/-- One of the words stands in the name. -/
def Mentions (words : List Text) (name : Text) : Prop :=
  ∃ word ∈ words, word <:+: name

instance (words : List Text) (name : Text) :
    Decidable (Mentions words name) :=
  inferInstanceAs (Decidable (∃ word ∈ words, word <:+: name))

/-- A name that has `_exps` in it is that of an expert of some layer, and one
that has not is not that of a chunk. -/
def Usual (name : Text) : Prop :=
  if Mentions ["_exps".toList] name then
    Mentions wholeExperts name ∨ Mentions chunkedExperts name
  else ¬ Mentions chunkedExperts name

theorem classifyTensor_eq_expert_iff (name : Text) :
    classifyTensor name = .expert ↔ Mentions ["_exps".toList] name := by
  have found : contains name "_exps" = true ↔
      Mentions ["_exps".toList] name := by
    rw [contains, find_isSome_iff, Mentions]
    simp only [List.mem_singleton, exists_eq_left]
  rw [← found, classifyTensor]
  split
  · next here => exact iff_of_true rfl here
  · next missing =>
      apply iff_of_false _ missing
      split
      · exact fun same => by cases same
      split
      · exact fun same => by cases same
      · exact fun same => by cases same

theorem search_iff (name : Text) :
    ffnExpsRegex.search name = true ↔
      Mentions wholeExperts name ∨ Mentions chunkedExperts name := by
  have words : ∀ word, word ∈ ffnExpsRegex.words ↔
      word ∈ wholeExperts ∨ word ∈ chunkedExperts := by
    have parts : ffnExpsRegex.words.Perm
        (wholeExperts ++ chunkedExperts) := by decide +kernel
    intro word
    rw [parts.mem_iff, List.mem_append]
  rw [Pattern.search_iff, Mentions, Mentions, ← exists_or]
  simp only [words, or_and_right]

/-- What the name of an expert has in it. -/
theorem mentions_exps {name : Text} (whole : Mentions wholeExperts name) :
    Mentions ["_exps".toList] name := by
  obtain ⟨word, listed, stands⟩ := whole
  have inside : ∀ word ∈ wholeExperts, "_exps".toList <:+: word := by
    rw [wholeExperts]
    simp only [List.forall_mem_cons]
    exact ⟨by decide, by decide, by decide, nofun⟩
  exact ⟨_, List.mem_singleton_self _, (inside word listed).trans stands⟩

theorem evictionPriority_eq_zero_iff (group : WeightGroup) :
    evictionPriority group = 0 ↔ group = .expert := by
  cases group <;> simp [evictionPriority]

/-- Planner and loader agree on a name exactly if it is a usual one. -/
theorem agrees_iff (name : Text) : Agrees name ↔ Usual name := by
  have pinned : Placement.hybridMoe.onGpu name = false ↔
      ffnExpsRegex.search name = true := by
    rw [Placement.hybridMoe_onGpu, Bool.not_eq_false']
  have both : Agrees name ↔
      (Mentions ["_exps".toList] name ↔
        Mentions wholeExperts name ∨ Mentions chunkedExperts name) := by
    rw [← classifyTensor_eq_expert_iff, ← search_iff]
    constructor
    · exact fun agrees => agrees.expert
    · intro same
      refine ⟨same, ?_⟩
      rw [evictionPriority_eq_zero_iff, pinned, same]
  rw [both, Usual]
  split
  · next here => exact iff_true_left here
  · next missing =>
      rw [iff_false_left missing, not_or]
      exact and_iff_right (mt mentions_exps missing)

/-- A chunk is pinned to the CPU but no expert for the planner, and a fused
tensor is an expert but not pinned. -/
theorem not_agrees :
    ¬ Agrees "blk.0.ffn_up_chexps.weight".toList ∧
      ¬ Agrees "blk.0.ffn_gate_up_exps.weight".toList := by
  constructor
  · exact fun agrees => absurd agrees.expert (by decide +kernel)
  · exact fun agrees => absurd agrees.expert (by decide +kernel)

end Runa.App.Experts
