import Runa.Kernels.Filters

/-!
# The filters and their references

`reference::top_k`, `top_p` and `min_p` of `runa-kernels/src/reference.rs`.
Without a nucleus to fill, the filter keeps the first of the greatest entries
and the reference the last one; they agree where there is only one
(`filters_agree_iff`).
-/

namespace Runa.Kernels.Reference

open Runa.Kernels.Filters

/-! ## The references -/

def renormalize (p : List ℚ) : List ℚ :=
  let sum := p.sum
  if 0 < sum then
    let inv := 1 / sum
    p.map (· * inv)
  else p

/-- The indices, sorted by `total_cmp` of the entries, the greatest first. -/
def sortedIndices (p : List ℚ) : List Nat :=
  (List.range p.length).insertionSort fun a b => p.getD b 0 ≤ p.getD a 0

/-- Zeros, and some entries at their places. -/
def keepAt (p : List ℚ) (indices : List Nat) : List ℚ :=
  indices.foldl (fun keep i => keep.set i (p.getD i 0))
    (List.replicate p.length 0)

def topK (p : List ℚ) (k : Int) : List ℚ :=
  let n := p.length
  if n = 0 ∨ k ≤ 0 ∨ (n : Int) ≤ k then p
  else renormalize (keepAt p ((sortedIndices p).take k.toNat))

/-- `max_by`, the last of the greatest entries, from an index on. -/
def lastFrom : List ℚ → Nat → Nat → ℚ → Nat
  | [], _, best, _ => best
  | x :: rest, i, best, value =>
    if x < value then lastFrom rest (i + 1) best value
    else lastFrom rest (i + 1) i x

/-- The index of the last greatest entry, zero where there is none. -/
def lastBest : List ℚ → Nat
  | [] => 0
  | x :: rest => lastFrom rest 1 0 x

def keepCount (p : List ℚ) (topP : ℚ) : List Nat → ℚ → Nat → Nat
  | [], _, keepN => keepN
  | i :: rest, cum, keepN =>
    let cum := cum + p.getD i 0
    let keepN := keepN + 1
    if topP ≤ cum then keepN else keepCount p topP rest cum keepN

def topP (p : List ℚ) (topP : ℚ) : List ℚ :=
  let n := p.length
  if n = 0 ∨ 1 ≤ topP then p
  else if topP ≤ 0 then (List.replicate n 0).set (lastBest p) 1
  else
    let idx := sortedIndices p
    renormalize (keepAt p (idx.take (keepCount p topP idx 0 0)))

def minP (p : List ℚ) (minP : ℚ) : List ℚ :=
  if p.isEmpty ∨ minP ≤ 0 then p
  else
    let mx := p.foldl max 0
    let thr := minP * mx
    renormalize (p.map fun v => if v < thr then 0 else v)

/-! ## One at a time -/

theorem renormalize_eq (p : List ℚ) :
    renormalize p = Filters.renormalize p := by
  rw [renormalize, Filters.renormalize]
  by_cases positive : 0 < p.sum
  · rw [if_pos positive, if_neg (not_le.mpr positive)]
  · rw [if_neg positive, if_pos (not_lt.mp positive)]

theorem topK_eq (p : List ℚ) (k : Int) :
    topK p k =
      if p.length = 0 ∨ k ≤ 0 ∨ (p.length : Int) ≤ k then p
      else Filters.renormalize (keepOnly ((ranked p).take k.toNat) p) := by
  rw [topK, renormalize_eq, keepAt, scatter]
  rfl

theorem keepCount_eq (p : List ℚ) (topP : ℚ) (indices : List Nat) (cum : ℚ)
    (keep : Nat) :
    keepCount p topP indices cum keep =
      keepLoop topP (indices.map (itemAt p)) keep cum := by
  induction indices generalizing cum keep with
  | nil => rfl
  | cons i rest induction =>
      rw [keepCount, List.map_cons, keepLoop, induction]
      rfl

theorem topP_eq (p : List ℚ) (bound : ℚ) :
    topP p bound =
      if p.length = 0 ∨ 1 ≤ bound then p
      else if bound ≤ 0 then (List.replicate p.length 0).set (lastBest p) 1
      else
        Filters.renormalize
          (keepOnly ((ranked p).take (nucleus p bound)) p) := by
  rw [topP, renormalize_eq, keepAt, scatter, keepCount_eq]
  rfl

/-- The thresholds are equal, as zero is no greater than any entry. -/
theorem minP_eq {p : List ℚ} (nonneg : ∀ x ∈ p, 0 ≤ x) (bound : ℚ) :
    minP p bound = runaMinP p bound := by
  have empty : p.isEmpty = true ↔ p.length = 0 := by
    rw [List.isEmpty_iff, List.length_eq_zero_iff]
  by_cases off : p.length = 0 ∨ bound ≤ 0
  · rw [minP, runaMinP, if_pos (by rwa [empty]), if_pos off]
  · have nonempty : 0 < p.length := Nat.pos_of_ne_zero (not_or.mp off).1
    rcases foldl_max_drop nonempty with ⟨member, greatest⟩
    rcases foldl_max_spec p 0 with ⟨zero, above, among⟩
    have same : p.foldl max 0 = (p.drop 1).foldl max (p.getD 0 0) := by
      apply le_antisymm
      · rcases among with eq | inside
        · rw [eq]
          exact nonneg _ member
        · exact greatest _ inside
      · exact above _ member
    rw [minP, runaMinP, if_neg (by rwa [empty]), if_neg off, same,
      renormalize_eq]

/-! ## The last of the greatest -/

theorem lastFrom_spec (p : List ℚ) {rest : List ℚ} {i best : Nat}
    (ahead : p.drop i = rest) (behind : best < i)
    (inside : i ≤ p.length)
    (greatest : ∀ j < i, p.getD j 0 ≤ p.getD best 0)
    (last : ∀ j < i, best < j → p.getD j 0 < p.getD best 0) :
    Greatest p (lastFrom rest i best (p.getD best 0)) ∧
      ∀ j < p.length, lastFrom rest i best (p.getD best 0) < j →
        p.getD j 0 < p.getD (lastFrom rest i best (p.getD best 0)) 0 := by
  induction rest generalizing i best with
  | nil =>
      have whole : p.length ≤ i := List.drop_eq_nil_iff.mp ahead
      rw [lastFrom]
      exact
        ⟨⟨by omega, fun j small => greatest j (by omega)⟩,
          fun j small => last j (by omega)⟩
  | cons x rest induction =>
      rcases of_drop_eq_cons ahead with ⟨small, here, next⟩
      rw [lastFrom]
      split
      case isTrue below =>
        rw [← here] at below
        refine induction next (by omega) small ?_ ?_
        · intro j before
          rcases Nat.lt_succ_iff_lt_or_eq.mp before with before | rfl
          · exact greatest j before
          · exact below.le
        · intro j before later
          rcases Nat.lt_succ_iff_lt_or_eq.mp before with before | rfl
          · exact last j before later
          · exact below
      case isFalse above =>
        rw [← here] at above ⊢
        refine induction next (Nat.lt_succ_self i) small ?_ ?_
        · intro j before
          rcases Nat.lt_succ_iff_lt_or_eq.mp before with before | rfl
          · exact (greatest j before).trans (not_lt.mp above)
          · exact le_rfl
        · exact fun j before later => absurd before (by omega)

theorem lastBest_spec {p : List ℚ} (nonempty : 0 < p.length) :
    Greatest p (lastBest p) ∧
      ∀ j < p.length, lastBest p < j →
        p.getD j 0 < p.getD (lastBest p) 0 := by
  rcases List.exists_cons_of_length_pos nonempty with ⟨x, rest, rfl⟩
  exact lastFrom_spec (x :: rest) rfl Nat.one_pos nonempty
    (fun j small => by rw [Nat.lt_one_iff.mp small])
    (fun j small behind => absurd small (by omega))

/-! ## All of them -/

/-- A result keeps a number of entries, none smaller than one left out. -/
def Keeps (p q : List ℚ) (count : Nat) : Prop :=
  ∃ kept : List Nat,
    kept.Nodup ∧ kept.length = count ∧ (∀ i ∈ kept, i < p.length) ∧
      (∀ i ∈ kept, ∀ j < p.length, j ∉ kept → p.getD j 0 ≤ p.getD i 0) ∧
      ∃ scale : ℚ, 0 < scale ∧ q = (keepOnly kept p).map (· * scale)

/--
The filters give what the references give, and `top_k` keeps `k` entries where
there are so many; it is off where `k` is not positive.
-/
structure Agrees (p : List ℚ) (k : Int) (nucleus least : ℚ) : Prop where
  topK : runaTopK p k = some (topK p k)
  topP : runaTopP p nucleus = some (topP p nucleus)
  minP : runaMinP p least = minP p least
  keeps :
    ∃ q, runaTopK p k = some q ∧
      Keeps p q (if 0 < k then min k.toNat p.length else p.length)

/-- There is at most one greatest entry. -/
def SoleGreatest (p : List ℚ) : Prop :=
  ∀ i j, Greatest p i → Greatest p j → i = j

theorem keepOnly_all (p : List ℚ) :
    keepOnly (List.range p.length) p = p := by
  apply List.ext_getElem
  · exact length_keepOnly _ p
  · intro i _ inside
    rw [getElem_keepOnly, if_pos (List.mem_range.mpr inside)]
    rfl

theorem keeps_all (p : List ℚ) : Keeps p p p.length := by
  refine
    ⟨List.range p.length, List.nodup_range, List.length_range,
      fun i member => List.mem_range.mp member, ?_, 1, one_pos, ?_⟩
  · intro i _ j inside dropped
    exact absurd (List.mem_range.mpr inside) dropped
  · rw [keepOnly_all]
    simp

/-- Scaling by a positive factor, or not at all. -/
theorem exists_scale (q : List ℚ) :
    ∃ scale : ℚ, 0 < scale ∧ Filters.renormalize q = q.map (· * scale) := by
  rw [Filters.renormalize]
  split
  case isTrue small => exact ⟨1, one_pos, by simp⟩
  case isFalse large =>
    exact ⟨1 / q.sum, one_div_pos.mpr (not_le.mp large), rfl⟩

theorem keeps_take (p : List ℚ) {count : Nat} (within : count ≤ p.length) :
    Keeps p (Filters.renormalize (keepOnly ((ranked p).take count) p))
      count := by
  refine
    ⟨(ranked p).take count, (ranked_nodup p).sublist (List.take_sublist _ _),
      ?_, ?_, ?_, exists_scale _⟩
  · rw [List.length_take, length_ranked, min_eq_left within]
  · exact fun i member => mem_ranked.mp (List.mem_of_mem_take member)
  · exact fun i kept j inside dropped => le_of_mem_take kept inside dropped

/-- The sort is skipped, or every index is a `u32`. -/
def TopKFits (p : List ℚ) (k : Int) : Prop :=
  k ≤ 0 ∨ (p.length : Int) ≤ k ∨ p.length ≤ 2 ^ 32

def TopPFits (p : List ℚ) (nucleus : ℚ) : Prop :=
  nucleus ≤ 0 ∨ 1 ≤ nucleus ∨ p.length ≤ 2 ^ 32

theorem runaTopK_iff (p : List ℚ) (k : Int) :
    runaTopK p k = some (topK p k) ↔ TopKFits p k := by
  rw [runaTopK_eq, topK_eq]
  by_cases off : p.length = 0 ∨ k ≤ 0 ∨ (p.length : Int) ≤ k
  · rw [if_pos off, if_pos off]
    apply iff_of_true rfl
    rcases off with empty | off | large
    · exact Or.inr (Or.inr (by omega))
    · exact Or.inl off
    · exact Or.inr (Or.inl large)
  · rw [if_neg off, if_neg off]
    by_cases fits : p.length ≤ 2 ^ 32
    · rw [if_pos fits]
      exact iff_of_true rfl (Or.inr (Or.inr fits))
    · rw [if_neg fits]
      apply iff_of_false nofun
      rintro (small | large | inside)
      · exact off (Or.inr (Or.inl small))
      · exact off (Or.inr (Or.inr large))
      · exact fits inside

theorem keeps_topK {p : List ℚ} {k : Int} (fits : TopKFits p k) :
    ∃ q, runaTopK p k = some q ∧
      Keeps p q (if 0 < k then min k.toNat p.length else p.length) := by
  refine ⟨topK p k, (runaTopK_iff p k).mpr fits, ?_⟩
  rw [topK_eq]
  by_cases off : p.length = 0 ∨ k ≤ 0 ∨ (p.length : Int) ≤ k
  · have count :
        (if 0 < k then min k.toNat p.length else p.length) = p.length := by
      split <;> omega
    rw [if_pos off, count]
    exact keeps_all p
  · have count :
        (if 0 < k then min k.toNat p.length else p.length) = k.toNat := by
      rw [if_pos (by omega)]
      omega
    rw [if_neg off, count]
    exact keeps_take p (by omega)

/-- Two vectors with a single entry. -/
theorem single_inj {n one other : Nat} (inside : one < n) :
    (List.replicate n (0 : ℚ)).set one 1 =
        (List.replicate n (0 : ℚ)).set other 1 ↔
      one = other := by
  constructor
  · intro same
    by_contra apart
    have here := congrArg (fun p => p[one]?) same
    simp only [List.getElem?_set, List.length_replicate, inside,
      List.getElem?_replicate, if_neg (Ne.symm apart)] at here
    simp at here
  · rintro rfl
    rfl

/-- The first and the last of the greatest are one where there is only one. -/
theorem firstBest_eq_lastBest {p : List ℚ} (nonempty : 0 < p.length) :
    firstBest p = lastBest p ↔ SoleGreatest p := by
  rcases firstBest_spec nonempty with ⟨first, before⟩
  rcases lastBest_spec nonempty with ⟨last, behind⟩
  constructor
  · intro same
    have only : ∀ i, Greatest p i → i = firstBest p := by
      intro i greatest
      apply Nat.le_antisymm
      · by_contra later
        have less := behind i greatest.1 (by omega)
        exact absurd (greatest.2 _ last.1) (not_le.mpr less)
      · by_contra early
        have less := before i (by omega)
        exact absurd (greatest.2 _ first.1) (not_le.mpr less)
    exact fun i j one other => (only i one).trans (only j other).symm
  · exact fun sole => sole _ _ first last

theorem runaTopP_iff (p : List ℚ) (nucleus : ℚ) :
    runaTopP p nucleus = some (topP p nucleus) ↔
      (0 < nucleus ∨ SoleGreatest p) ∧ TopPFits p nucleus := by
  rw [runaTopP_eq, topP_eq]
  by_cases off : p.length = 0 ∨ 1 ≤ nucleus
  · rw [if_pos off, if_pos off]
    apply iff_of_true rfl
    rcases off with empty | large
    · refine ⟨Or.inr ?_, Or.inr (Or.inr (by omega))⟩
      exact fun i _ greatest => absurd greatest.1 (by omega)
    · exact ⟨Or.inl (one_pos.trans_le large), Or.inr (Or.inl large)⟩
  · have nonempty : 0 < p.length := Nat.pos_of_ne_zero (not_or.mp off).1
    rw [if_neg off, if_neg off]
    by_cases none : nucleus ≤ 0
    · rw [if_pos none, if_pos none, Option.some_inj]
      change
        (List.replicate p.length 0).set (firstBest p) 1 =
            (List.replicate p.length 0).set (lastBest p) 1 ↔ _
      rw [single_inj (firstBest_spec nonempty).1.1,
        firstBest_eq_lastBest nonempty]
      constructor
      · exact fun sole => ⟨Or.inr sole, Or.inl none⟩
      · rintro ⟨positive | sole, -⟩
        · exact absurd none (not_le.mpr positive)
        · exact sole
    · rw [if_neg none, if_neg none]
      by_cases fits : p.length ≤ 2 ^ 32
      · rw [if_pos fits]
        exact iff_of_true rfl ⟨Or.inl (not_le.mp none), Or.inr (Or.inr fits)⟩
      · rw [if_neg fits]
        apply iff_of_false nofun
        rintro ⟨-, small | large | inside⟩
        · exact none small
        · exact (not_or.mp off).2 large
        · exact fits inside

/--
The filters agree with their references where the nucleus is not empty or one
entry is greatest, and no index is too large.
-/
theorem filters_agree_iff (p : List ℚ) (nonneg : ∀ x ∈ p, 0 ≤ x) (k : Int)
    (nucleus least : ℚ) :
    Agrees p k nucleus least ↔
      (0 < nucleus ∨ SoleGreatest p) ∧ TopKFits p k ∧
        TopPFits p nucleus := by
  constructor
  · intro agrees
    rcases (runaTopP_iff p nucleus).mp agrees.topP with ⟨sole, fits⟩
    exact ⟨sole, (runaTopK_iff p k).mp agrees.topK, fits⟩
  · rintro ⟨sole, fitsK, fitsP⟩
    exact
      { topK := (runaTopK_iff p k).mpr fitsK
        topP := (runaTopP_iff p nucleus).mpr ⟨sole, fitsP⟩
        minP := (minP_eq nonneg least).symm
        keeps := keeps_topK fitsK }

/-- Of two equal entries the filter keeps the first, the reference the last. -/
theorem filters_disagree :
    runaTopP [1 / 2, 1 / 2] 0 = some [1, 0] ∧
      topP [1 / 2, 1 / 2] 0 = [0, 1] ∧ ¬ Agrees [1 / 2, 1 / 2] 1 0 0 := by
  have filter : runaTopP [1 / 2, 1 / 2] 0 = some [1, 0] := by
    decide +kernel
  have reference : topP [1 / 2, 1 / 2] 0 = [0, 1] := by decide +kernel
  refine ⟨filter, reference, ?_⟩
  intro agrees
  have same := agrees.topP
  rw [filter, reference] at same
  exact absurd same (by decide +kernel)

/-- Two entries and a nucleus. -/
theorem filters_agree_pair :
    Agrees [1 / 4, 3 / 4] 1 (1 / 2) (1 / 10) := by
  refine (filters_agree_iff [1 / 4, 3 / 4] ?_ 1 (1 / 2) (1 / 10)).mpr ?_
  · intro x member
    simp only [List.mem_cons, List.not_mem_nil, or_false] at member
    rcases member with rfl | rfl <;> positivity
  · exact
      ⟨Or.inl (by positivity), Or.inr (Or.inr (by decide)),
        Or.inr (Or.inr (by decide))⟩

end Runa.Kernels.Reference
