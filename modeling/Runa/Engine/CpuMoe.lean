import Runa.Engine.Placements

/-!
# Experts of the first layers

`--n-cpu-moe` keeps the experts of the first layers on the CPU.  llama.cpp has
one pattern for each of these layers; only one pattern can be handed to it
here, which names all of them.  `withNCpuMoe_exact` says that the one is worth
the many, and which tensors of a model it means.
-/

namespace Runa.Engine.CpuMoe

open Runa.Stream.Utf8
open Runa.Engine.Placements

/-! ## Patterns of layers -/

/-- `blk\.<layer>\.ffn_(up|down|gate)_(ch|)exps`, which llama.cpp has for a
layer -/
def layerPattern (layer : Nat) : Pattern :=
  ["blk.".toList] :: [(toString layer).toList] :: ffnExpsRegex

/-- One of the patterns is found in the name. -/
def pinned (patterns : List Pattern) (name : Text) : Bool :=
  patterns.any fun pattern => pattern.search name

/-- Pin the experts of the first `n` layers to the CPU. -/
def withNCpuMoe (placement : Placement) (n : Nat) : Placement :=
  { placement with cpuPatterns := cpuMoePatterns n }

theorem onGpu_eq (placement : Placement) (name : Text) :
    placement.onGpu name =
      (decide (placement.nGpuLayers ≠ 0) &&
        !pinned placement.cpuPatterns name) :=
  rfl

@[simp]
theorem withNCpuMoe_cpuPatterns (placement : Placement) (n : Nat) :
    (withNCpuMoe placement n).cpuPatterns = cpuMoePatterns n :=
  rfl

@[simp]
theorem withNCpuMoe_nGpuLayers (placement : Placement) (n : Nat) :
    (withNCpuMoe placement n).nGpuLayers = placement.nGpuLayers :=
  rfl

/-- The expert words of a layer. -/
def layerWord (layer : Nat) (word : Text) : Text :=
  "blk.".toList ++ ((toString layer).toList ++ word)

theorem layerPattern_search_iff (layer : Nat) (name : Text) :
    (layerPattern layer).search name = true ↔
      ∃ word ∈ ffnExpsRegex.words, layerWord layer word <:+: name := by
  rw [Pattern.search_iff]
  simp [layerPattern, Pattern.words, layerWord]

theorem pinned_iff_of_lt {n : Nat} (small : n < 256) (name : Text) :
    pinned (cpuMoePatterns n) name = true ↔
      ∃ layer < n, (layerPattern layer).search name = true := by
  simp only [layerPattern_search_iff]
  by_cases none : n = 0
  · simp [cpuMoePatterns, none, pinned]
  · rw [cpuMoePatterns, if_neg none, if_neg (by omega), pinned,
      List.any_cons, List.any_nil, Bool.or_false, Pattern.search_iff]
    simp only [Pattern.words, List.flatMap_cons, List.flatMap_nil,
      List.append_nil, List.mem_map, List.mem_flatMap, List.mem_range]
    constructor
    · rintro ⟨_, ⟨_, ⟨_, ⟨layer, below, rfl⟩, word, there, rfl⟩, rfl⟩,
        stands⟩
      exact ⟨layer, below, word, there, stands⟩
    · rintro ⟨layer, below, word, there, stands⟩
      exact ⟨_, ⟨_, ⟨_, ⟨layer, below, rfl⟩, word, there, rfl⟩, rfl⟩,
        stands⟩

theorem pinned_iff_of_le {n : Nat} (large : 256 ≤ n) (name : Text) :
    pinned (cpuMoePatterns n) name = true ↔
      ffnExpsRegex.search name = true := by
  rw [cpuMoePatterns, if_neg (by omega), if_pos large, pinned,
    List.any_cons, List.any_nil, Bool.or_false]

/-- The pattern of a layer is found in experts only. -/
theorem search_of_layerPattern {layer : Nat} {name : Text}
    (found : (layerPattern layer).search name = true) :
    ffnExpsRegex.search name = true := by
  rcases (layerPattern_search_iff layer name).mp found with
    ⟨word, there, stands⟩
  apply (Pattern.search_iff _ _).mpr
  refine ⟨word, there, List.IsInfix.trans ?_ stands⟩
  rw [layerWord, ← List.append_assoc]
  exact List.infix_append_right

/-- What a number pins, a greater one pins. -/
theorem pinned_mono {m n : Nat} (le : m ≤ n) {name : Text}
    (pins : pinned (cpuMoePatterns m) name = true) :
    pinned (cpuMoePatterns n) name = true := by
  rcases Nat.lt_or_ge n 256 with small | large
  · rw [pinned_iff_of_lt (by omega)] at pins
    rcases pins with ⟨layer, below, found⟩
    exact (pinned_iff_of_lt small name).mpr ⟨layer, by omega, found⟩
  · rw [pinned_iff_of_le large]
    rcases Nat.lt_or_ge m 256 with small | large
    · rw [pinned_iff_of_lt small] at pins
      rcases pins with ⟨layer, -, found⟩
      exact search_of_layerPattern found
    · exact (pinned_iff_of_le large name).mp pins

/-! ## Names of tensors -/

/-- A tensor of a layer as GGUF files name it: `blk.`, the layer, a dot and a
rest with no layer and no `.ffn_` in it. -/
structure LayerTensor where
  layer : Nat
  rest : Text
  noLayer : ¬ "blk.".toList <:+: rest
  noFfn : ¬ ".ffn_".toList <:+: rest

def LayerTensor.name (tensor : LayerTensor) : Text :=
  "blk.".toList ++ ((toString tensor.layer).toList ++ '.' :: tensor.rest)

/-- The symbol with which a word begins is not in front, so the word is
behind. -/
theorem infix_append_iff_of_notMem {α : Type} {first : α}
    {word front behind : List α} (absent : first ∉ front) :
    first :: word <:+: front ++ behind ↔ first :: word <:+: behind := by
  induction front with
  | nil => rfl
  | cons head front ih =>
      rw [List.mem_cons, not_or] at absent
      rw [List.cons_append, List.infix_cons_iff, ih absent.2,
        List.cons_prefix_cons]
      constructor
      · rintro (⟨same, -⟩ | stands)
        · exact absurd same absent.1
        · exact stands
      · exact Or.inr

/-- Each expert word begins with `.ffn_`. -/
theorem expert_word {word : Text} (there : word ∈ ffnExpsRegex.words) :
    ∃ more, word = ".ffn_".toList ++ more := by
  simp only [ffnExpsRegex, Pattern.words, List.mem_flatMap, List.mem_map,
    List.mem_singleton] at there
  rcases there with ⟨_, rfl, more, -, rfl⟩
  exact ⟨more, rfl⟩

theorem isDigit_of_mem_toString {n : Nat} {symbol : Char}
    (member : symbol ∈ (toString n).toList) : symbol.isDigit = true := by
  rw [Nat.toString_eq_repr, Nat.toList_repr] at member
  exact Nat.isDigit_of_mem_toDigits (by decide) (by decide) member

theorem toString_cons (n : Nat) :
    ∃ digit more, (toString n).toList = digit :: more ∧
      digit.isDigit = true := by
  cases printed : (toString n).toList with
  | nil =>
      rw [Nat.toString_eq_repr, Nat.toList_repr] at printed
      exact absurd printed Nat.toDigits_ne_nil
  | cons digit more =>
      have member : digit ∈ (toString n).toList := by
        rw [printed]
        exact List.mem_cons_self
      exact ⟨digit, more, rfl, isDigit_of_mem_toString member⟩

/-- A number that ends with a dot is read off in one way. -/
theorem toString_dot {m n : Nat} {rest behind : Text}
    (begins : (toString m).toList ++ '.' :: rest <+:
      (toString n).toList ++ '.' :: behind) :
    m = n ∧ rest <+: behind := by
  rcases begins with ⟨tail, same⟩
  rw [List.append_assoc, List.cons_append] at same
  have digits : ∀ (k : Nat) (more : Text),
      ((toString k).toList ++ '.' :: more).takeWhile Char.isDigit =
        (toString k).toList := by
    intro k more
    rw [List.takeWhile_append_of_pos fun symbol member =>
      isDigit_of_mem_toString member]
    simp
  have numbers := congrArg (List.takeWhile Char.isDigit) same
  rw [digits, digits] at numbers
  have equal : m = n := by
    simp only [Nat.toString_eq_repr, Nat.toList_repr] at numbers
    rw [← @Nat.ofDigitChars_ten_toDigits m, numbers,
      Nat.ofDigitChars_ten_toDigits]
  subst equal
  rw [List.append_cancel_left_eq, List.cons.injEq] at same
  exact ⟨rfl, tail, same.2⟩

section Names

variable (tensor : LayerTensor)

/-- An expert word begins at the dot behind the layer. -/
def LayerTensor.Expert : Prop :=
  ∃ word ∈ ffnExpsRegex.words, word <+: '.' :: tensor.rest

theorem expert_infix_iff {word : Text}
    (there : word ∈ ffnExpsRegex.words) :
    word <:+: tensor.name ↔ word <+: '.' :: tensor.rest := by
  rcases expert_word there with ⟨more, rfl⟩
  rcases toString_cons tensor.layer with ⟨digit, digits, printed, isDigit⟩
  have notDigit : '.' ∉ (toString tensor.layer).toList := by
    intro member
    have wrong := isDigit_of_mem_toString member
    simp at wrong
  have named : tensor.name =
      "blk".toList ++ ('.' :: ((toString tensor.layer).toList ++
        '.' :: tensor.rest)) := by
    simp [LayerTensor.name]
  have dotted : ".ffn_".toList ++ more =
      '.' :: ("ffn_".toList ++ more) := by simp
  constructor
  · intro stands
    rw [named, dotted, infix_append_iff_of_notMem (by simp),
      List.infix_cons_iff] at stands
    rcases stands with here | stands
    · -- behind the first dot stands a digit
      rw [List.cons_prefix_cons, printed] at here
      have letter : digit = 'f' := by
        rcases here.2 with ⟨tail, same⟩
        simp at same
        exact same.1.symm
      rw [letter] at isDigit
      simp at isDigit
    · rw [infix_append_iff_of_notMem notDigit, List.infix_cons_iff]
        at stands
      rcases stands with here | stands
      · rw [dotted]
        exact here
      · exact absurd
          (List.IsInfix.trans List.infix_append_left (dotted ▸ stands))
          tensor.noFfn
  · intro here
    rw [LayerTensor.name, ← List.append_assoc]
    exact here.isInfix.trans List.infix_append_right

theorem search_name_iff :
    ffnExpsRegex.search tensor.name = true ↔ tensor.Expert := by
  rw [Pattern.search_iff, LayerTensor.Expert]
  constructor
  · rintro ⟨word, there, stands⟩
    exact ⟨word, there, (expert_infix_iff tensor there).mp stands⟩
  · rintro ⟨word, there, begins⟩
    exact ⟨word, there, (expert_infix_iff tensor there).mpr begins⟩

/-- A layer's expert words stand at the front of a name or nowhere. -/
theorem layerWord_infix_iff {layer : Nat} {word : Text}
    (there : word ∈ ffnExpsRegex.words) :
    layerWord layer word <:+: tensor.name ↔
      layer = tensor.layer ∧ word <+: '.' :: tensor.rest := by
  rcases expert_word there with ⟨more, rfl⟩
  have dotted : ".ffn_".toList ++ more =
      '.' :: ("ffn_".toList ++ more) := by simp
  have noB : 'b' ∉ "lk.".toList ++
      ((toString tensor.layer).toList ++ ['.']) := by
    intro member
    rw [List.mem_append, List.mem_append] at member
    rcases member with member | member | member
    · simp at member
    · have wrong := isDigit_of_mem_toString member
      simp at wrong
    · simp at member
  constructor
  · intro stands
    have worded : layerWord layer (".ffn_".toList ++ more) =
        'b' :: ("lk.".toList ++ ((toString layer).toList ++
          (".ffn_".toList ++ more))) := by
      simp [layerWord]
    have named : tensor.name =
        'b' :: ("lk.".toList ++ ((toString tensor.layer).toList ++
          '.' :: tensor.rest)) := by
      simp [LayerTensor.name]
    rw [worded, named, List.infix_cons_iff] at stands
    rcases stands with here | stands
    · rw [List.cons_prefix_cons, List.prefix_append_right_inj, dotted]
        at here
      rcases toString_dot here.2 with ⟨same, begins⟩
      rw [dotted, List.cons_prefix_cons]
      exact ⟨same, rfl, begins⟩
    · -- no other `blk.` stands in the name
      have split : "lk.".toList ++ ((toString tensor.layer).toList ++
          '.' :: tensor.rest) =
          ("lk.".toList ++ ((toString tensor.layer).toList ++ ['.'])) ++
            tensor.rest := by simp
      rw [split, infix_append_iff_of_notMem noB] at stands
      apply absurd _ tensor.noLayer
      have front : "blk.".toList <:+: 'b' :: ("lk.".toList ++
          ((toString layer).toList ++ (".ffn_".toList ++ more))) := by
        have joined : 'b' :: ("lk.".toList ++
            ((toString layer).toList ++ (".ffn_".toList ++ more))) =
            "blk.".toList ++
              ((toString layer).toList ++ (".ffn_".toList ++ more)) := by
          simp
        rw [joined]
        exact List.infix_append_left
      exact front.trans stands
  · rintro ⟨rfl, begins⟩
    rw [layerWord, LayerTensor.name]
    exact ((List.prefix_append_right_inj _).mpr
      ((List.prefix_append_right_inj _).mpr begins)).isInfix

theorem layerPattern_name_iff (layer : Nat) :
    (layerPattern layer).search tensor.name = true ↔
      layer = tensor.layer ∧ tensor.Expert := by
  rw [layerPattern_search_iff, LayerTensor.Expert]
  constructor
  · rintro ⟨word, there, stands⟩
    rcases (layerWord_infix_iff tensor there).mp stands with
      ⟨same, begins⟩
    exact ⟨same, word, there, begins⟩
  · rintro ⟨same, word, there, begins⟩
    exact ⟨word, there,
      (layerWord_infix_iff tensor there).mpr ⟨same, begins⟩⟩

theorem pinned_name_iff (n : Nat) :
    pinned (cpuMoePatterns n) tensor.name = true ↔
      tensor.Expert ∧ (tensor.layer < n ∨ 256 ≤ n) := by
  rcases Nat.lt_or_ge n 256 with small | large
  · rw [pinned_iff_of_lt small]
    simp only [layerPattern_name_iff]
    constructor
    · rintro ⟨_, below, rfl, expert⟩
      exact ⟨expert, Or.inl below⟩
    · rintro ⟨expert, below | large⟩
      · exact ⟨tensor.layer, below, rfl, expert⟩
      · omega
  · rw [pinned_iff_of_le large, search_name_iff]
    exact ⟨fun expert => ⟨expert, Or.inr large⟩, fun both => both.1⟩

end Names

/-! ## Placements -/

section Exact

variable (placement : Placement) (n : Nat)

theorem withNCpuMoe_length :
    (withNCpuMoe placement n).cpuPatterns.length ≤ 1 := by
  rw [withNCpuMoe_cpuPatterns, cpuMoePatterns]
  split
  · simp
  · split <;> simp

/-- The patterns of the layers pin what the single one pins. -/
theorem withNCpuMoe_layers (name : Text) :
    (withNCpuMoe placement n).onGpu name =
      ({ placement with cpuPatterns :=
        if 256 ≤ n then [ffnExpsRegex]
        else (List.range n).map layerPattern } : Placement).onGpu name := by
  rw [onGpu_eq, onGpu_eq, withNCpuMoe_nGpuLayers, withNCpuMoe_cpuPatterns]
  congr 2
  rw [Bool.eq_iff_iff]
  by_cases large : 256 ≤ n
  · rw [pinned_iff_of_le large, if_pos large]
    simp [pinned]
  · rw [pinned_iff_of_lt (by omega), if_neg large]
    simp [pinned]

theorem withNCpuMoe_tensor (tensor : LayerTensor) :
    (withNCpuMoe placement n).onGpu tensor.name = true ↔
      placement.nGpuLayers ≠ 0 ∧
        (Placement.hybridMoe.onGpu tensor.name = true ∨
          n ≤ tensor.layer ∧ n < 256) := by
  rw [onGpu_eq, withNCpuMoe_nGpuLayers, withNCpuMoe_cpuPatterns,
    Placement.hybridMoe_onGpu, Bool.and_eq_true, decide_eq_true_eq,
    Bool.not_eq_true', Bool.not_eq_true', ← Bool.not_eq_true,
    ← Bool.not_eq_true, pinned_name_iff, search_name_iff]
  apply and_congr_right
  intro _
  constructor
  · intro apart
    by_cases expert : tensor.Expert
    · right
      constructor
      · by_contra below
        exact apart ⟨expert, Or.inl (by omega)⟩
      · by_contra large
        exact apart ⟨expert, Or.inr (by omega)⟩
    · exact Or.inl expert
  · rintro (notExpert | ⟨high, small⟩) ⟨expert, below | large⟩
    · exact notExpert expert
    · exact notExpert expert
    · omega
    · omega

/-- What is on the GPU with a number is there with a smaller one. -/
theorem withNCpuMoe_anti {more : Nat} (le : n ≤ more) {name : Text}
    (onGpu : (withNCpuMoe placement more).onGpu name = true) :
    (withNCpuMoe placement n).onGpu name = true := by
  rw [onGpu_eq, Bool.and_eq_true, withNCpuMoe_nGpuLayers,
    withNCpuMoe_cpuPatterns, Bool.not_eq_true'] at onGpu ⊢
  refine ⟨onGpu.1, ?_⟩
  by_contra pins
  rw [Bool.not_eq_false] at pins
  rw [pinned_mono le pins] at onGpu
  exact absurd onGpu.2 (by simp)

/-- The single pattern of a number is worth the patterns of its layers, it
moves to the CPU just those experts whose layer is below the number, and a
greater number moves no tensor to the GPU. -/
theorem withNCpuMoe_exact :
    (withNCpuMoe placement n).cpuPatterns.length ≤ 1 ∧
    (∀ name, (withNCpuMoe placement n).onGpu name =
      ({ placement with cpuPatterns :=
        if 256 ≤ n then [ffnExpsRegex]
        else (List.range n).map layerPattern } : Placement).onGpu name) ∧
    (∀ tensor : LayerTensor,
      (withNCpuMoe placement n).onGpu tensor.name = true ↔
        placement.nGpuLayers ≠ 0 ∧
          (Placement.hybridMoe.onGpu tensor.name = true ∨
            n ≤ tensor.layer ∧ n < 256)) ∧
    ∀ more, n ≤ more → ∀ name,
      (withNCpuMoe placement more).onGpu name = true →
        (withNCpuMoe placement n).onGpu name = true :=
  ⟨withNCpuMoe_length placement n, withNCpuMoe_layers placement n,
    withNCpuMoe_tensor placement n,
    fun _ le _ onGpu => withNCpuMoe_anti placement n le onGpu⟩

end Exact

/-- With two layers on the CPU, the eleventh stays on the GPU. -/
example :
    ((withNCpuMoe .gpu 2).onGpu "blk.1.ffn_up_exps.weight".toList,
      (withNCpuMoe .gpu 2).onGpu "blk.10.ffn_up_exps.weight".toList) =
        (false, true) := by
  decide

end Runa.Engine.CpuMoe
