import Runa.Stream.Utf8

/-!
# Placements

The embedding of `Placement` of `runa-engine/src/placement.rs`: how many
layers go to the GPU, and the patterns of tensor names that are kept on the
CPU.  A pattern is a sequence of groups of literal alternatives, which is all
that the regular expressions of the source are made of; llama.cpp searches
for it anywhere in a name.
-/

namespace Runa.Engine.Placements

open Runa.Stream.Utf8

/-! ## Patterns -/

/-- A sequence of groups of alternatives. -/
abbrev Pattern := List (List Text)

/-- The pattern matches a beginning of the text. -/
def Pattern.matchesAt : Pattern → Text → Bool
  | [], _ => true
  | group :: rest, text =>
      group.any fun literal =>
        literal.isPrefixOf text &&
          Pattern.matchesAt rest (text.drop literal.length)

/-- The pattern matches somewhere in the name. -/
def Pattern.search (pattern : Pattern) (name : Text) : Bool :=
  name.tails.any pattern.matchesAt

/-- The texts that a pattern stands for. -/
def Pattern.words : Pattern → List Text
  | [] => [[]]
  | group :: rest =>
      group.flatMap fun literal =>
        (Pattern.words rest).map fun word => literal ++ word

theorem Pattern.matchesAt_iff (pattern : Pattern) (text : Text) :
    pattern.matchesAt text = true ↔
      ∃ word ∈ pattern.words, word <+: text := by
  induction pattern generalizing text with
  | nil => simp [Pattern.matchesAt, Pattern.words]
  | cons group rest ih =>
      simp only [Pattern.matchesAt, Pattern.words, List.any_eq_true,
        Bool.and_eq_true, List.isPrefixOf_iff_prefix, List.mem_flatMap,
        List.mem_map, ih]
      constructor
      · rintro ⟨literal, here, ⟨behind, rfl⟩, word, there, begins⟩
        rw [List.drop_left] at begins
        exact ⟨literal ++ word, ⟨literal, here, word, there, rfl⟩,
          (List.prefix_append_right_inj literal).mpr begins⟩
      · rintro ⟨_, ⟨literal, here, word, there, rfl⟩, behind, rfl⟩
        refine ⟨literal, here, ?_, word, there, ?_⟩
        · rw [List.append_assoc]
          exact List.prefix_append literal _
        · rw [List.append_assoc, List.drop_left]
          exact List.prefix_append word behind

/-- A pattern matches somewhere exactly if one of its texts stands there. -/
theorem Pattern.search_iff (pattern : Pattern) (name : Text) :
    pattern.search name = true ↔
      ∃ word ∈ pattern.words, word <:+: name := by
  simp only [Pattern.search, List.any_eq_true, List.mem_tails,
    Pattern.matchesAt_iff]
  constructor
  · rintro ⟨behind, tail, word, there, begins⟩
    exact ⟨word, there, begins.isInfix.trans tail.isInfix⟩
  · rintro ⟨word, there, stands⟩
    obtain ⟨behind, begins, tail⟩ := List.infix_iff_prefix_suffix.mp stands
    exact ⟨behind, tail, word, there, begins⟩

/-- `\.ffn_(up|down|gate)_(ch|)exps` -/
def ffnExpsRegex : Pattern :=
  [[".ffn_".toList], ["up".toList, "down".toList, "gate".toList],
    ["_".toList], ["ch".toList, []], ["exps".toList]]

/-- Override patterns for the experts of the first layers. -/
def cpuMoePatterns (nCpuMoe : Nat) : List Pattern :=
  if nCpuMoe = 0 then []
  else if 256 ≤ nCpuMoe then [ffnExpsRegex]
  else
    [["blk.".toList] ::
      ((List.range nCpuMoe).map fun layer => (toString layer).toList) ::
        ffnExpsRegex]

/-! ## Placements -/

/-- `u32::MAX`, which stands for all layers -/
def allLayers : Nat := 2 ^ 32 - 1

/-- Where tensors live. -/
structure Placement where
  nGpuLayers : Nat
  cpuPatterns : List Pattern
  mainGpu : Int
  devices : List Text
  tensorSplit : List Rat
  rpcServers : List Text
deriving DecidableEq, Repr

def Placement.new
    (nGpuLayers : Nat) (cpuPatterns : List Pattern) : Placement where
  nGpuLayers := nGpuLayers
  cpuPatterns := cpuPatterns
  mainGpu := 0
  devices := []
  tensorSplit := []
  rpcServers := []

/-- Pure CPU. -/
def Placement.cpu : Placement :=
  .new 0 []

/-- Full GPU offload. -/
def Placement.gpu : Placement :=
  .new allLayers []

/-- All layers on the GPU, every expert tensor on the CPU. -/
def Placement.hybridMoe : Placement :=
  .new allLayers (cpuMoePatterns 256)

/--
Whether a placement puts a tensor on the GPU, if it puts no layer there or
all of them.
-/
def Placement.onGpu (placement : Placement) (name : Text) : Bool :=
  decide (placement.nGpuLayers ≠ 0) &&
    !placement.cpuPatterns.any fun pattern => pattern.search name

@[simp]
theorem Placement.cpu_onGpu (name : Text) :
    Placement.cpu.onGpu name = false :=
  rfl

@[simp]
theorem Placement.gpu_onGpu (name : Text) :
    Placement.gpu.onGpu name = true :=
  rfl

@[simp]
theorem Placement.hybridMoe_onGpu (name : Text) :
    Placement.hybridMoe.onGpu name = !ffnExpsRegex.search name := by
  simp [Placement.onGpu, Placement.hybridMoe, Placement.new,
    cpuMoePatterns, allLayers]

end Runa.Engine.Placements
