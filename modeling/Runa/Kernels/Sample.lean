import Runa.Kernels.Filters

/-!
# The draw of the kernel sampler

`xorshift32` and `runa_sample_token_f32` of `runa-kernels/zig/kernels.zig`.
The softmax is a parameter.  The walk along the filtered vector compares the
draw with `u <= cum`, and so a draw of zero takes the first token, whatever
the filters left of it (`sampleToken_survives_iff`).
-/

namespace Runa.Kernels.Sample

open Runa.Kernels.Filters

/-! ## The function -/

/-- The new state, which is also the value. -/
def xorshift32 (s : UInt32) : UInt32 :=
  let x := if s = 0 then 1 else s
  let x := x ^^^ (x <<< 13)
  let x := x ^^^ (x >>> 17)
  x ^^^ (x <<< 5)

/-- The upper 24 bits as a fraction. -/
def draw (value : UInt32) : ℚ :=
  ((value >>> 8).toNat : ℚ) / ((2 ^ 24 : Nat) : ℚ)

/-- An index as an `i32`. -/
def token (index : Nat) : Option Nat :=
  if index < 2 ^ 31 then some index else none

/-- The cumulative walk, from an index on. -/
def walk (u : ℚ) (pick : Nat) : List ℚ → Nat → ℚ → Nat
  | [], _, _ => pick
  | x :: rest, i, cum =>
    let cum := cum + x
    if u ≤ cum then i else walk u pick rest (i + 1) cum

def filters (topK : Int) (topP minP : ℚ) (p : List ℚ) : Option (List ℚ) := do
  let p ← runaTopK p topK
  let p ← runaTopP p topP
  return runaMinP p minP

/-- The token, and the state of the seed behind it. -/
def runaSampleToken (softmax : List ℚ → List ℚ) (logits : List ℚ)
    (temperature : ℚ) (topK : Int) (topP minP : ℚ) (seed : UInt32) :
    Option (Nat × UInt32) :=
  let n := logits.length
  if n = 0 then some (0, seed)
  else if temperature ≤ 0 then do
    let best ← token (firstBest logits)
    return (best, seed)
  else do
    let buf := softmax (logits.map (· / temperature))
    let buf ← filters topK topP minP buf
    let next := xorshift32 seed
    let last ← token (n - 1)
    return (walk (draw next) last buf 0 0, next)

/-! ## The draw -/

theorem toNat_shiftRight (value : UInt32) :
    (value >>> 8).toNat = value.toNat / 256 := by
  rw [UInt32.toNat_shiftRight, Nat.shiftRight_eq_div_pow]
  rfl

theorem draw_nonneg (value : UInt32) : 0 ≤ draw value := by
  rw [draw]
  positivity

theorem draw_lt_one (value : UInt32) : draw value < 1 := by
  have bound := value.toNat_lt
  have small : (value >>> 8).toNat < 2 ^ 24 := by
    rw [toNat_shiftRight]
    omega
  rw [draw, div_lt_one (by positivity)]
  exact_mod_cast small

/-- The draw is zero for the least 256 values. -/
theorem draw_pos_iff (value : UInt32) : 0 < draw value ↔ 256 ≤ value := by
  have divides : 0 < value.toNat / 256 ↔ 256 ≤ value.toNat := by omega
  rw [draw, div_pos_iff_of_pos_right (by positivity), Nat.cast_pos,
    toNat_shiftRight, divides, UInt32.le_iff_toNat_le]
  rfl

/-! ## The walk -/

/-- A positive draw ends at a positive entry. -/
theorem walk_pos {u : ℚ} {pick : Nat} {rest : List ℚ} {cum : ℚ}
    (ahead : cum < u) (within : u ≤ cum + rest.sum) (i : Nat) :
    ∃ j, walk u pick rest i cum = i + j ∧ 0 < rest.getD j 0 := by
  induction rest generalizing cum i with
  | nil =>
      rw [List.sum_nil, add_zero] at within
      exact absurd ahead (not_lt.mpr within)
  | cons x rest induction =>
      rw [walk]
      split
      case isTrue reached => 
        refine ⟨0, rfl, ?_⟩
        change 0 < x
        linarith
      case isFalse short =>
        rw [List.sum_cons, ← add_assoc] at within
        rcases induction (not_le.mp short) within (i + 1) with
          ⟨j, place, positive⟩
        exact ⟨j + 1, by rw [place]; omega, positive⟩

/-- A draw of zero ends at the first entry. -/
theorem walk_zero {pick : Nat} {p : List ℚ} (whole : Distribution p) :
    walk 0 pick p 0 0 = 0 := by
  rcases List.exists_cons_of_length_pos whole.length_pos with ⟨x, rest, rfl⟩
  rw [walk, if_pos]
  rw [zero_add]
  exact whole.nonneg x List.mem_cons_self

/-! ## What survives the filters -/

theorem filters_distribution {p q : List ℚ} (whole : Distribution p)
    {topK : Int} {topP minP : ℚ} (small : minP ≤ 1)
    (filtered : filters topK topP minP p = some q) : Distribution q := by
  rw [filters] at filtered
  rcases Option.bind_eq_some_iff.mp filtered with ⟨byK, first, filtered⟩
  rcases Option.bind_eq_some_iff.mp filtered with ⟨byP, second, filtered⟩
  cases filtered
  exact
    runaMinP_distribution
      (runaTopP_distribution (runaTopK_distribution whole first) second) small

theorem exists_filters {p : List ℚ} (fits : p.length ≤ 2 ^ 32) (topK : Int)
    (topP minP : ℚ) : ∃ q, filters topK topP minP p = some q := by
  rcases exists_runaTopK fits topK with ⟨byK, first⟩
  have length := length_runaTopK first
  rcases exists_runaTopP (p := byK) (by omega) topP with ⟨byP, second⟩
  exact ⟨runaMinP byP minP, by rw [filters, first]; simp [second]⟩

/-- The sampler returns a token that the filters left some probability. -/
def Survives (softmax : List ℚ → List ℚ) (logits : List ℚ)
    (temperature : ℚ) (topK : Int) (topP minP : ℚ) (seed : UInt32) : Prop :=
  ∃ index next filtered,
    runaSampleToken softmax logits temperature topK topP minP seed =
        some (index, next) ∧
      filters topK topP minP (softmax (logits.map (· / temperature))) =
        some filtered ∧
      0 < filtered.getD index 0

section

variable {softmax : List ℚ → List ℚ} {logits : List ℚ} {temperature : ℚ}
  {topK : Int} {topP minP : ℚ} {seed : UInt32}

theorem token_eq_some {index value : Nat} :
    token index = some value ↔ index < 2 ^ 31 ∧ index = value := by
  rw [token, Option.ite_none_right_eq_some, Option.some_inj]

/-- At a positive temperature the walk decides. -/
theorem runaSampleToken_eq_some {index : Nat} {next : UInt32}
    (nonempty : logits ≠ []) (positive : 0 < temperature) :
    runaSampleToken softmax logits temperature topK topP minP seed =
        some (index, next) ↔
      logits.length ≤ 2 ^ 31 ∧
        ∃ filtered,
          filters topK topP minP (softmax (logits.map (· / temperature))) =
              some filtered ∧
            walk (draw (xorshift32 seed)) (logits.length - 1) filtered 0 0 =
                index ∧
              xorshift32 seed = next := by
  have length := List.length_pos_of_ne_nil nonempty
  have step :
      runaSampleToken softmax logits temperature topK topP minP seed =
        (filters topK topP minP
          (softmax (logits.map (· / temperature)))).bind fun buf =>
            (token (logits.length - 1)).bind fun last =>
              some
                (walk (draw (xorshift32 seed)) last buf 0 0,
                  xorshift32 seed) := by
    rw [runaSampleToken, if_neg length.ne', if_neg (not_le.mpr positive)]
    rfl
  rw [step, Option.bind_eq_some_iff]
  constructor
  · rintro ⟨filtered, done, drawn⟩
    rcases Option.bind_eq_some_iff.mp drawn with ⟨last, fits, picked⟩
    rcases token_eq_some.mp fits with ⟨small, rfl⟩
    rw [Option.some_inj, Prod.mk.injEq] at picked
    exact ⟨by omega, filtered, done, picked.1, picked.2⟩
  · rintro ⟨fits, filtered, done, rfl, rfl⟩
    refine ⟨filtered, done, ?_⟩
    rw [token_eq_some.mpr ⟨by omega, rfl⟩]
    rfl

end

/--
The token has a positive probability unless the draw is zero and the first
token did not survive.
-/
theorem sampleToken_survives_iff (softmax : List ℚ → List ℚ)
    (logits : List ℚ) (temperature : ℚ) (positive : 0 < temperature)
    (whole : Distribution (softmax (logits.map (· / temperature))))
    (length :
      (softmax (logits.map (· / temperature))).length = logits.length)
    (topK : Int) (topP minP : ℚ) (small : minP ≤ 1) (seed : UInt32) :
    Survives softmax logits temperature topK topP minP seed ↔
      logits.length ≤ 2 ^ 31 ∧
        (256 ≤ xorshift32 seed ∨
          ∃ filtered,
            filters topK topP minP
                (softmax (logits.map (· / temperature))) = some filtered ∧
              0 < filtered.getD 0 0) := by
  have nonempty : logits ≠ [] := by
    apply List.ne_nil_of_length_pos
    rw [← length]
    exact whole.length_pos
  constructor
  · rintro ⟨index, next, filtered, sampled, done, survives⟩
    rcases (runaSampleToken_eq_some nonempty positive).mp sampled with
      ⟨fits, other, same, rfl, rfl⟩
    rw [done] at same
    cases same
    refine ⟨fits, ?_⟩
    by_cases large : 256 ≤ xorshift32 seed
    · exact Or.inl large
    · have zero : draw (xorshift32 seed) = 0 :=
        le_antisymm
          (not_lt.mp (mt (draw_pos_iff (xorshift32 seed)).mp large))
          (draw_nonneg (xorshift32 seed))
      rw [zero, walk_zero (filters_distribution whole small done)] at survives
      exact Or.inr ⟨filtered, done, survives⟩
  · rintro ⟨fits, large⟩
    rcases exists_filters (p := softmax (logits.map (· / temperature)))
      (by omega) topK topP minP with ⟨filtered, done⟩
    have left := filters_distribution whole small done
    refine ⟨_, _, filtered,
      (runaSampleToken_eq_some nonempty positive).mpr
        ⟨fits, filtered, done, rfl, rfl⟩, done, ?_⟩
    rcases (draw_nonneg (xorshift32 seed)).eq_or_lt with zero | drawn
    · -- Only the first token can be drawn.
      have little : ¬ 256 ≤ xorshift32 seed := by
        rw [← draw_pos_iff, ← zero]
        exact lt_irrefl 0
      rcases large.resolve_left little with ⟨other, same, first⟩
      rw [done] at same
      cases same
      rw [← zero, walk_zero left]
      exact first
    · have within : draw (xorshift32 seed) ≤ 0 + filtered.sum := by
        rw [left.total, zero_add]
        exact (draw_lt_one _).le
      have walked : ∃ index,
          walk (draw (xorshift32 seed)) (logits.length - 1) filtered 0 0 =
              0 + index ∧
            0 < filtered.getD index 0 :=
        walk_pos drawn within 0
      rcases walked with ⟨index, place, survives⟩
      rw [place, Nat.zero_add]
      exact survives

/-- A seed whose draw is zero, and a first token that was filtered out. -/
theorem sampleToken_filtered :
    runaSampleToken (fun _ => [1 / 4, 3 / 4]) [0, 1] 1 1 1 0 4071982377 =
        some (0, 1) ∧
      filters 1 1 0 [1 / 4, 3 / 4] = some [0, 1] ∧
      ¬ Survives (fun _ => [1 / 4, 3 / 4]) [0, 1] 1 1 1 0 4071982377 := by
  have sampled :
      runaSampleToken (fun _ => [1 / 4, 3 / 4]) [0, 1] 1 1 1 0 4071982377 =
        some (0, 1) := by
    decide +kernel
  have left : filters 1 1 0 [1 / 4, 3 / 4] = some [0, 1] := by
    decide +kernel
  refine ⟨sampled, left, ?_⟩
  rintro ⟨index, next, filtered, other, done, survives⟩
  rw [sampled] at other
  cases other
  rw [left] at done
  cases done
  exact absurd survives (by decide +kernel)

/-- The seed 99 draws the token that is left. -/
theorem sampleToken_survives :
    Survives (fun _ => [1 / 4, 3 / 4]) [0, 1] 1 1 1 0 99 := by
  refine
    (sampleToken_survives_iff (fun _ => [1 / 4, 3 / 4]) [0, 1] 1 one_pos
      ⟨?_, by decide +kernel⟩ rfl 1 1 0 zero_le_one 99).mpr
      ⟨by decide, Or.inl (by decide +kernel)⟩
  intro x member
  simp only [List.mem_cons, List.not_mem_nil, or_false] at member
  rcases member with rfl | rfl <;> positivity

end Runa.Kernels.Sample
