import Mathlib.Algebra.BigOperators.Ring.List
import Mathlib.Algebra.Order.BigOperators.Group.List
import Mathlib.Algebra.Order.Field.Rat
import Mathlib.Data.List.GetD
import Mathlib.Data.List.Sort
import Mathlib.Tactic.Linarith
import Mathlib.Tactic.Positivity

/-!
# The sampling filters

`runa_top_k_f32`, `runa_top_p_f32` and `runa_min_p_f32` of
`runa-kernels/zig/kernels.zig`, with exact rationals for `f32`.  A filter has
no value where an index does not fit its integer type.  What the two sorting
filters come to is a vector without the entries that are ranked behind a
number of others (`runaTopK_eq`, `runaTopP_eq`).
-/

namespace Runa.Kernels.Filters

/-! ## The filters -/

def renormalize (p : List ℚ) : List ℚ :=
  let sum := p.sum
  if sum ≤ 0 then p
  else
    let inv := 1 / sum
    p.map (· * inv)

structure Item where
  p : ℚ
  i : Nat
deriving DecidableEq

/-- An entry with its index, as a `u32`. -/
def item (entry : ℚ × Nat) : Option Item :=
  if entry.2 < 2 ^ 32 then some { p := entry.1, i := entry.2 } else none

def items (p : List ℚ) : Option (List Item) :=
  p.zipIdx.mapM item

/-- `std.mem.sort` with `less_desc`, which is stable. -/
def sortDesc (items : List Item) : List Item :=
  items.insertionSort fun a b => b.p ≤ a.p

/-- Zeros, and the items at their places. -/
def putBack (n : Nat) (items : List Item) : List ℚ :=
  items.foldl (fun p item => p.set item.i item.p) (List.replicate n 0)

def runaTopK (p : List ℚ) (k : Int) : Option (List ℚ) :=
  let n := p.length
  if n = 0 ∨ k ≤ 0 ∨ (n : Int) ≤ k then some p
  else do
    let items ← items p
    return renormalize (putBack n ((sortDesc items).take k.toNat))

/-- The first of the greatest entries, from an index on. -/
def bestFrom : List ℚ → Nat → Nat → ℚ → Nat
  | [], _, best, _ => best
  | x :: rest, i, best, value =>
    if value < x then bestFrom rest (i + 1) i x
    else bestFrom rest (i + 1) best value

/-- How many items reach `top_p` together. -/
def keepLoop (topP : ℚ) : List Item → Nat → ℚ → Nat
  | [], keep, _ => keep
  | item :: rest, keep, cum =>
    let cum := cum + item.p
    if topP ≤ cum then keep + 1 else keepLoop topP rest (keep + 1) cum

def runaTopP (p : List ℚ) (topP : ℚ) : Option (List ℚ) :=
  let n := p.length
  if n = 0 ∨ 1 ≤ topP then some p
  else if topP ≤ 0 then
    let best := bestFrom (p.drop 1) 1 0 (p.getD 0 0)
    some ((List.replicate n 0).set best 1)
  else do
    let items ← items p
    let sorted := sortDesc items
    let keep := keepLoop topP sorted 0 0
    return renormalize (putBack n (sorted.take keep))

def runaMinP (p : List ℚ) (minP : ℚ) : List ℚ :=
  if p.length = 0 ∨ minP ≤ 0 then p
  else
    let mx := (p.drop 1).foldl max (p.getD 0 0)
    let thr := minP * mx
    renormalize (p.map fun x => if x < thr then 0 else x)

/-! ## Ranks -/

/-- The indices, those of greater entries first, equal ones in order. -/
def ranked (p : List ℚ) : List Nat :=
  (List.range p.length).insertionSort fun a b => p.getD b 0 ≤ p.getD a 0

/-- A vector with zeros outside of some indices. -/
def keepOnly (kept : List Nat) (p : List ℚ) : List ℚ :=
  p.mapIdx fun i x => if i ∈ kept then x else 0

@[simp]
theorem length_keepOnly (kept : List Nat) (p : List ℚ) :
    (keepOnly kept p).length = p.length :=
  List.length_mapIdx

@[simp]
theorem getElem_keepOnly (kept : List Nat) (p : List ℚ) {i : Nat}
    (inside : i < (keepOnly kept p).length) :
    (keepOnly kept p)[i] =
      if i ∈ kept then p.get ⟨i, length_keepOnly kept p ▸ inside⟩ else 0 :=
  List.getElem_mapIdx

def itemAt (p : List ℚ) (i : Nat) : Item where
  p := p.getD i 0
  i := i

theorem mapM_item (l : List ℚ) (start : Nat)
    (fits : start + l.length ≤ 2 ^ 32) :
    (l.zipIdx start).mapM item =
      some ((l.zipIdx start).map fun (x, i) => { p := x, i := i }) := by
  induction l generalizing start with
  | nil => rfl
  | cons x rest induction =>
      rw [List.length_cons] at fits
      rw [List.zipIdx_cons, List.mapM_cons, induction (start + 1) (by omega),
        item, if_pos (by omega)]
      rfl

theorem mapM_item_eq_none (l : List ℚ) (start : Nat)
    (small : start ≤ 2 ^ 32) (long : 2 ^ 32 < start + l.length) :
    (l.zipIdx start).mapM item = none := by
  induction l generalizing start with
  | nil =>
      rw [List.length_nil] at long
      omega
  | cons x rest induction =>
      rw [List.length_cons] at long
      rw [List.zipIdx_cons, List.mapM_cons, item]
      split
      · rw [induction (start + 1) (by omega) (by omega)]
        rfl
      · rfl

theorem items_eq {p : List ℚ} (fits : p.length ≤ 2 ^ 32) :
    items p = some ((List.range p.length).map (itemAt p)) := by
  rw [items, mapM_item p 0 (by omega)]
  congr 1
  apply List.ext_getElem
  · simp
  · intro i small _
    rw [List.length_map, List.length_zipIdx] at small
    simp [itemAt, small]

theorem items_eq_none {p : List ℚ} (long : 2 ^ 32 < p.length) :
    items p = none :=
  mapM_item_eq_none p 0 (by omega) (by omega)

theorem sortDesc_items (p : List ℚ) :
    sortDesc ((List.range p.length).map (itemAt p)) =
      (ranked p).map (itemAt p) := by
  rw [sortDesc, ranked]
  exact
    (List.map_insertionSort _ _ (itemAt p) _ fun _ _ _ _ => Iff.rfl).symm

/-- Entries put back one at a time. -/
theorem getElem?_foldl_set (p : List ℚ) (kept : List Nat) (out : List ℚ)
    (j : Nat) :
    (kept.foldl (fun out i => out.set i (p.getD i 0)) out)[j]? =
      if j ∈ kept then out[j]?.map fun _ => p.getD j 0 else out[j]? := by
  induction kept generalizing out with
  | nil => rfl
  | cons i rest induction =>
      rw [List.foldl_cons, induction, List.getElem?_set]
      by_cases later : j ∈ rest
      · by_cases same : i = j
        · subst same
          rw [if_pos later, if_pos List.mem_cons_self, if_pos rfl]
          by_cases inside : i < out.length <;> simp [inside]
        · rw [if_pos later, if_pos (List.mem_cons_of_mem _ later),
            if_neg same]
      · by_cases same : i = j
        · subst same
          rw [if_neg later, if_pos List.mem_cons_self, if_pos rfl]
          by_cases inside : i < out.length <;> simp [inside]
        · have apart : j ∉ i :: rest :=
            List.not_mem_cons_of_ne_of_not_mem (Ne.symm same) later
          rw [if_neg later, if_neg apart, if_neg same]

theorem scatter (p : List ℚ) (kept : List Nat) :
    kept.foldl (fun out i => out.set i (p.getD i 0))
        (List.replicate p.length 0) =
      keepOnly kept p := by
  apply List.ext_getElem?
  intro j
  rw [getElem?_foldl_set, keepOnly, List.getElem?_mapIdx,
    List.getElem?_replicate]
  by_cases inside : j < p.length
  · by_cases member : j ∈ kept <;> simp [inside, member]
  · simp [inside]

theorem putBack_eq (p : List ℚ) (kept : List Nat) :
    putBack p.length (kept.map (itemAt p)) = keepOnly kept p := by
  rw [putBack, List.foldl_map]
  exact scatter p kept

/-- The filter is off, or it leaves out what is not among the first `k`. -/
theorem runaTopK_eq (p : List ℚ) (k : Int) :
    runaTopK p k =
      if p.length = 0 ∨ k ≤ 0 ∨ (p.length : Int) ≤ k then some p
      else if p.length ≤ 2 ^ 32 then
        some (renormalize (keepOnly ((ranked p).take k.toNat) p))
      else none := by
  rw [runaTopK]
  split
  · rfl
  · split
    case isTrue fits =>
      rw [items_eq fits]
      change some (renormalize (putBack _ ((sortDesc _).take _))) = _
      rw [sortDesc_items, ← List.map_take, putBack_eq]
    case isFalse long =>
      rw [items_eq_none (Nat.lt_of_not_le long)]
      rfl

@[simp]
theorem length_renormalize (p : List ℚ) :
    (renormalize p).length = p.length := by
  rw [renormalize]
  split
  · rfl
  · exact List.length_map _

theorem length_runaTopK {p q : List ℚ} {k : Int}
    (filtered : runaTopK p k = some q) : q.length = p.length := by
  rw [runaTopK_eq] at filtered
  split at filtered
  · cases filtered
    rfl
  · split at filtered
    · cases filtered
      rw [length_renormalize, length_keepOnly]
    · cases filtered

/-- With `u32` indices the filter has a result. -/
theorem exists_runaTopK {p : List ℚ} (fits : p.length ≤ 2 ^ 32) (k : Int) :
    ∃ q, runaTopK p k = some q := by
  rw [runaTopK_eq, if_pos fits]
  split <;> exact ⟨_, rfl⟩

/-- How many ranked entries reach `top_p` together. -/
def nucleus (p : List ℚ) (topP : ℚ) : Nat :=
  keepLoop topP ((ranked p).map (itemAt p)) 0 0

theorem runaTopP_eq (p : List ℚ) (topP : ℚ) :
    runaTopP p topP =
      if p.length = 0 ∨ 1 ≤ topP then some p
      else if topP ≤ 0 then
        some
          ((List.replicate p.length 0).set
            (bestFrom (p.drop 1) 1 0 (p.getD 0 0)) 1)
      else if p.length ≤ 2 ^ 32 then
        some (renormalize (keepOnly ((ranked p).take (nucleus p topP)) p))
      else none := by
  rw [runaTopP]
  split
  · rfl
  · split
    · rfl
    · split
      case isTrue fits =>
        rw [items_eq fits]
        change
          some (renormalize (putBack _ ((sortDesc _).take
            (keepLoop topP (sortDesc _) 0 0)))) = _
        rw [sortDesc_items, ← List.map_take, putBack_eq, nucleus]
      case isFalse long =>
        rw [items_eq_none (Nat.lt_of_not_le long)]
        rfl

theorem exists_runaTopP {p : List ℚ} (fits : p.length ≤ 2 ^ 32)
    (topP : ℚ) : ∃ q, runaTopP p topP = some q := by
  rw [runaTopP_eq, if_pos fits]
  split
  · exact ⟨_, rfl⟩
  · split <;> exact ⟨_, rfl⟩

/-! ## What is ranked first -/

theorem ranked_perm (p : List ℚ) :
    (ranked p).Perm (List.range p.length) :=
  List.perm_insertionSort _ _

theorem ranked_nodup (p : List ℚ) : (ranked p).Nodup :=
  (ranked_perm p).nodup_iff.mpr List.nodup_range

theorem length_ranked (p : List ℚ) : (ranked p).length = p.length := by
  rw [(ranked_perm p).length_eq, List.length_range]

theorem mem_ranked {p : List ℚ} {i : Nat} :
    i ∈ ranked p ↔ i < p.length := by
  rw [(ranked_perm p).mem_iff, List.mem_range]

theorem ranked_sorted (p : List ℚ) :
    (ranked p).Pairwise fun a b => p.getD b 0 ≤ p.getD a 0 := by
  have total : Std.Total fun a b : Nat => p.getD b 0 ≤ p.getD a 0 :=
    ⟨fun a b => le_total (p.getD b 0) (p.getD a 0)⟩
  have trans : IsTrans Nat fun a b => p.getD b 0 ≤ p.getD a 0 :=
    ⟨fun _ _ _ first second => second.trans first⟩
  exact List.pairwise_insertionSort _ _

/-- No entry behind the first ones is greater than one of them. -/
theorem le_of_mem_take {p : List ℚ} {count i j : Nat}
    (kept : i ∈ (ranked p).take count) (inside : j < p.length)
    (dropped : j ∉ (ranked p).take count) : p.getD j 0 ≤ p.getD i 0 := by
  have behind : j ∈ (ranked p).drop count := by
    have member := mem_ranked.mpr inside
    rw [← List.take_append_drop count (ranked p), List.mem_append] at member
    exact member.resolve_left dropped
  exact (ranked_sorted p).rel_of_mem_take_of_mem_drop kept behind

/-! ## The first of the greatest -/

/-- An index whose entry is greatest. -/
def Greatest (p : List ℚ) (i : Nat) : Prop :=
  i < p.length ∧ ∀ j < p.length, p.getD j 0 ≤ p.getD i 0

/-- The entry at which a rest of a vector begins. -/
theorem of_drop_eq_cons {p rest : List ℚ} {i : Nat} {x : ℚ}
    (ahead : p.drop i = x :: rest) :
    i < p.length ∧ p.getD i 0 = x ∧ p.drop (i + 1) = rest := by
  refine ⟨?_, ?_, ?_⟩
  · by_contra large
    rw [List.drop_eq_nil_iff.mpr (Nat.le_of_not_lt large)] at ahead
    cases ahead
  · rw [List.getD_eq_getElem?_getD, ← List.head?_drop, ahead]
    rfl
  · rw [← List.tail_drop, ahead, List.tail_cons]

theorem bestFrom_spec (p : List ℚ) {rest : List ℚ} {i best : Nat}
    (ahead : p.drop i = rest) (behind : best < i)
    (inside : i ≤ p.length)
    (greatest : ∀ j < i, p.getD j 0 ≤ p.getD best 0)
    (first : ∀ j < best, p.getD j 0 < p.getD best 0) :
    Greatest p (bestFrom rest i best (p.getD best 0)) ∧
      ∀ j < bestFrom rest i best (p.getD best 0),
        p.getD j 0 <
          p.getD (bestFrom rest i best (p.getD best 0)) 0 := by
  induction rest generalizing i best with
  | nil =>
      have whole : p.length ≤ i := List.drop_eq_nil_iff.mp ahead
      rw [bestFrom]
      exact
        ⟨⟨by omega, fun j small => greatest j (by omega)⟩, first⟩
  | cons x rest induction =>
      rcases of_drop_eq_cons ahead with ⟨small, here, next⟩
      rw [bestFrom]
      split
      case isTrue above =>
        rw [← here] at above ⊢
        refine induction next (Nat.lt_succ_self i) small ?_ ?_
        · intro j before
          rcases Nat.lt_succ_iff_lt_or_eq.mp before with before | rfl
          · exact (greatest j before).trans above.le
          · exact le_rfl
        · exact fun j before => (greatest j before).trans_lt above
      case isFalse below =>
        refine induction next (by omega) small ?_ first
        intro j before
        rcases Nat.lt_succ_iff_lt_or_eq.mp before with before | rfl
        · exact greatest j before
        · rw [here]
          exact not_lt.mp below

/-- The index of the first greatest entry. -/
def firstBest (p : List ℚ) : Nat :=
  bestFrom (p.drop 1) 1 0 (p.getD 0 0)

theorem firstBest_spec {p : List ℚ} (nonempty : 0 < p.length) :
    Greatest p (firstBest p) ∧
      ∀ j < firstBest p, p.getD j 0 < p.getD (firstBest p) 0 :=
  bestFrom_spec p rfl Nat.one_pos nonempty
    (fun j small => by rw [Nat.lt_one_iff.mp small])
    (fun j small => absurd small (Nat.not_lt_zero j))

/-! ## Probability vectors -/

/-- Not negative, and one in total. -/
structure Distribution (p : List ℚ) : Prop where
  nonneg : ∀ x ∈ p, 0 ≤ x
  total : p.sum = 1

theorem sum_pos_of_mem {p : List ℚ} (nonneg : ∀ x ∈ p, 0 ≤ x) {x : ℚ}
    (member : x ∈ p) (positive : 0 < x) : 0 < p.sum :=
  positive.trans_le (List.single_le_sum nonneg x member)

theorem Distribution.exists_pos {p : List ℚ} (whole : Distribution p) :
    ∃ x ∈ p, 0 < x := by
  by_contra none
  push Not at none
  have small := List.sum_le_card_nsmul p 0 none
  rw [whole.total, nsmul_zero] at small
  linarith

theorem Distribution.length_pos {p : List ℚ} (whole : Distribution p) :
    0 < p.length := by
  rcases whole.exists_pos with ⟨x, member, -⟩
  exact List.length_pos_of_mem member

/-- A greatest entry is positive. -/
theorem Distribution.greatest_pos {p : List ℚ} (whole : Distribution p)
    {i : Nat} (greatest : Greatest p i) : 0 < p.getD i 0 := by
  rcases whole.exists_pos with ⟨x, member, positive⟩
  rcases List.getElem_of_mem member with ⟨j, inside, rfl⟩
  have below := greatest.2 j inside
  rw [List.getD_eq_getElem p 0 inside] at below
  exact positive.trans_le below

theorem renormalize_distribution {p : List ℚ} (nonneg : ∀ x ∈ p, 0 ≤ x)
    (positive : 0 < p.sum) : Distribution (renormalize p) := by
  have inverse : 0 ≤ 1 / p.sum := by positivity
  have scaled : renormalize p = p.map (· * (1 / p.sum)) :=
    if_neg (not_le.mpr positive)
  rw [scaled]
  constructor
  · intro y member
    rcases List.mem_map.mp member with ⟨x, inside, rfl⟩
    exact mul_nonneg (nonneg x inside) inverse
  · rw [List.sum_map_mul_right, List.map_id', mul_one_div_cancel positive.ne']

theorem getD_keepOnly (kept : List Nat) (p : List ℚ) (i : Nat) :
    (keepOnly kept p).getD i 0 = if i ∈ kept then p.getD i 0 else 0 := by
  rw [keepOnly, List.getD_eq_getElem?_getD, List.getElem?_mapIdx,
    List.getD_eq_getElem?_getD]
  by_cases inside : i < p.length
  · by_cases member : i ∈ kept <;> simp [inside, member]
  · simp [inside]

theorem nonneg_keepOnly {p : List ℚ} (nonneg : ∀ x ∈ p, 0 ≤ x)
    (kept : List Nat) : ∀ x ∈ keepOnly kept p, 0 ≤ x := by
  intro y member
  rcases List.mem_mapIdx.mp member with ⟨i, inside, rfl⟩
  split
  · exact nonneg _ (List.getElem_mem inside)
  · exact le_rfl

theorem mem_of_getD_pos {p : List ℚ} {i : Nat} (positive : 0 < p.getD i 0) :
    p.getD i 0 ∈ p := by
  by_cases inside : i < p.length
  · rw [List.getD_eq_getElem p 0 inside]
    exact List.getElem_mem inside
  · rw [List.getD_eq_default p 0 (Nat.le_of_not_lt inside)] at positive
    exact absurd positive (lt_irrefl 0)

/-- With a greatest entry in it, what is kept can be scaled up again. -/
theorem keepOnly_distribution {p : List ℚ} (whole : Distribution p)
    {kept : List Nat} {i : Nat} (greatest : Greatest p i)
    (member : i ∈ kept) : Distribution (renormalize (keepOnly kept p)) := by
  have nonneg := nonneg_keepOnly whole.nonneg kept
  have positive : 0 < (keepOnly kept p).getD i 0 := by
    rw [getD_keepOnly, if_pos member]
    exact whole.greatest_pos greatest
  exact
    renormalize_distribution nonneg
      (sum_pos_of_mem nonneg (mem_of_getD_pos positive) positive)

/-- The entry ranked first is greatest. -/
theorem greatest_of_ranked {p : List ℚ} {i : Nat} {rest : List Nat}
    (split : ranked p = i :: rest) : Greatest p i := by
  have sorted := ranked_sorted p
  rw [split, List.pairwise_cons] at sorted
  constructor
  · exact mem_ranked.mp (by rw [split]; exact List.mem_cons_self)
  · intro j inside
    have member := mem_ranked.mpr inside
    rw [split, List.mem_cons] at member
    rcases member with rfl | behind
    · exact le_rfl
    · exact sorted.1 j behind

/-- Some of the entries ranked first, scaled up. -/
theorem take_distribution {p : List ℚ} (whole : Distribution p) {count : Nat}
    (some : 0 < count) :
    Distribution (renormalize (keepOnly ((ranked p).take count) p)) := by
  have nonempty : 0 < (ranked p).length := by
    rw [length_ranked]
    exact whole.length_pos
  rcases List.exists_cons_of_length_pos nonempty with ⟨i, rest, split⟩
  apply keepOnly_distribution whole (greatest_of_ranked split)
  rcases Nat.exists_eq_add_of_lt some with ⟨more, rfl⟩
  rw [split, Nat.zero_add, List.take_succ_cons]
  exact List.mem_cons_self

theorem runaTopK_distribution {p q : List ℚ} (whole : Distribution p) {k : Int}
    (filtered : runaTopK p k = some q) : Distribution q := by
  rw [runaTopK_eq] at filtered
  split at filtered
  · cases filtered
    exact whole
  · split at filtered
    · cases filtered
      exact take_distribution whole (by omega)
    · cases filtered

theorem le_keepLoop (topP : ℚ) (items : List Item) (keep : Nat)
    (cum : ℚ) : keep ≤ keepLoop topP items keep cum := by
  induction items generalizing keep cum with
  | nil => exact le_rfl
  | cons item rest induction =>
      rw [keepLoop]
      split
      · exact Nat.le_succ keep
      · exact (Nat.le_succ keep).trans (induction _ _)

/-- At least one item is kept. -/
theorem keepLoop_pos (topP : ℚ) {items : List Item} (nonempty : items ≠ [])
    (keep : Nat) (cum : ℚ) : keep < keepLoop topP items keep cum := by
  rcases List.exists_cons_of_ne_nil nonempty with ⟨item, rest, rfl⟩
  rw [keepLoop]
  split
  · exact Nat.lt_succ_self keep
  · exact le_keepLoop topP rest (keep + 1) _

theorem sum_single {n best : Nat} (inside : best < n) :
    ((List.replicate n (0 : ℚ)).set best 1).sum = 1 := by
  induction n generalizing best with
  | zero => exact absurd inside (Nat.not_lt_zero best)
  | succ n induction =>
      rw [List.replicate_succ]
      cases best with
      | zero =>
          rw [List.set_cons_zero, List.sum_cons, List.sum_replicate,
            nsmul_zero, add_zero]
      | succ best =>
          rw [List.set_cons_succ, List.sum_cons, zero_add]
          exact induction (Nat.lt_of_succ_lt_succ inside)

theorem single_distribution {n best : Nat} (inside : best < n) :
    Distribution ((List.replicate n 0).set best 1) where
  nonneg x member := by
    rcases List.mem_or_eq_of_mem_set member with zero | rfl
    · rw [List.eq_of_mem_replicate zero]
    · exact zero_le_one
  total := sum_single inside

theorem runaTopP_distribution {p q : List ℚ} (whole : Distribution p)
    {topP : ℚ} (filtered : runaTopP p topP = some q) : Distribution q := by
  rw [runaTopP_eq] at filtered
  split at filtered
  · cases filtered
    exact whole
  · split at filtered
    · cases filtered
      exact single_distribution (firstBest_spec whole.length_pos).1.1
    · split at filtered
      · cases filtered
        apply take_distribution whole
        apply keepLoop_pos
        apply List.ne_nil_of_length_pos
        rw [List.length_map, length_ranked]
        exact whole.length_pos
      · cases filtered

/-- The greatest of a value and the entries of a list. -/
theorem foldl_max_spec (p : List ℚ) (start : ℚ) :
    start ≤ p.foldl max start ∧ (∀ x ∈ p, x ≤ p.foldl max start) ∧
      (p.foldl max start = start ∨ p.foldl max start ∈ p) := by
  induction p generalizing start with
  | nil => exact ⟨le_rfl, nofun, Or.inl rfl⟩
  | cons x rest induction =>
      rcases induction (max start x) with ⟨above, others, among⟩
      rw [List.foldl_cons]
      refine ⟨(le_max_left _ _).trans above, ?_, ?_⟩
      · exact List.forall_mem_cons.mpr ⟨(le_max_right _ _).trans above, others⟩
      · rcases among with same | member
        · rw [same]
          rcases max_choice start x with first | second
          · exact Or.inl first
          · rw [second]
            exact Or.inr List.mem_cons_self
        · exact Or.inr (List.mem_cons_of_mem _ member)

/-- The threshold of `min_p` starts from the greatest entry. -/
theorem foldl_max_drop {p : List ℚ} (nonempty : 0 < p.length) :
    (p.drop 1).foldl max (p.getD 0 0) ∈ p ∧
      ∀ x ∈ p, x ≤ (p.drop 1).foldl max (p.getD 0 0) := by
  rcases List.exists_cons_of_length_pos nonempty with ⟨x, rest, rfl⟩
  change rest.foldl max x ∈ x :: rest ∧ ∀ y ∈ x :: rest, y ≤ rest.foldl max x
  rcases foldl_max_spec rest x with ⟨above, others, among⟩
  refine ⟨?_, List.forall_mem_cons.mpr ⟨above, others⟩⟩
  rcases among with same | member
  · rw [same]
    exact List.mem_cons_self
  · exact List.mem_cons_of_mem _ member

/-- Up to one, `min_p` keeps a greatest entry. -/
theorem runaMinP_distribution {p : List ℚ} (whole : Distribution p)
    {minP : ℚ} (small : minP ≤ 1) : Distribution (runaMinP p minP) := by
  rcases foldl_max_drop whole.length_pos with ⟨member, greatest⟩
  rw [runaMinP]
  split
  · exact whole
  · generalize (p.drop 1).foldl max (p.getD 0 0) = mx at member greatest
    have positive : 0 < mx := by
      rcases whole.exists_pos with ⟨x, inside, positive⟩
      exact positive.trans_le (greatest x inside)
    have kept : ¬ mx < minP * mx :=
      not_lt.mpr (mul_le_of_le_one_left positive.le small)
    have nonneg :
        ∀ y ∈ p.map (fun x => if x < minP * mx then 0 else x), 0 ≤ y := by
      intro y inside
      rcases List.mem_map.mp inside with ⟨x, member, rfl⟩
      split
      · exact le_rfl
      · exact whole.nonneg x member
    refine renormalize_distribution nonneg (sum_pos_of_mem nonneg ?_ positive)
    exact List.mem_map.mpr ⟨mx, member, if_neg kept⟩

end Runa.Kernels.Filters
