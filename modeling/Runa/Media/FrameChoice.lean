import Mathlib.Data.Finset.Card
import Mathlib.Data.List.Destutter
import Mathlib.Data.List.GetD
import Mathlib.Data.List.Sort
import Mathlib.Order.Interval.Finset.Nat

/-!
# Which frames of a video are kept

`pick_indices` of `runa-media/src/video.rs`.  The first and the last frame and
those behind a scene cut are chosen first.  Where they are too many, the first,
the last and some of the others, evenly spaced, are kept; where they are too
few, frames are added, by a formula and else the first that is free.

The distances are of any type that can be compared with the threshold, so that
a comparison may also be false both ways.
-/

namespace Runa.Media.FrameChoice

variable {Distance : Type} [LE Distance] [DecidableLE Distance]

/-! ## The function -/

/-- Choose the frame behind a distance that reaches the threshold. -/
def markCut (n : Nat) (thresh : Distance) (chosen : List Bool)
    (found : Distance × Nat) : List Bool :=
  if thresh ≤ found.1 then
    if found.2 + 1 < n then chosen.set (found.2 + 1) true else chosen
  else chosen

def markEnds (n : Nat) : List Bool :=
  let chosen := (List.replicate n false).set 0 true
  if 1 < n then chosen.set (n - 1) true else chosen

/-- `chosen`: the ends and the scene cuts. -/
def markFrames (n : Nat) (distances : List Distance) (thresh : Distance) :
    List Bool :=
  distances.zipIdx.foldl (markCut n thresh) (markEnds n)

/-- The positions that are marked. -/
def positions (chosen : List Bool) : List Nat :=
  (chosen.zipIdx.filter Prod.fst).map Prod.snd

/-- The first, the last, and evenly spaced ones of the rest. -/
def keepSpaced (out : List Nat) (maxFrames : Nat) : List Nat :=
  let ends := out.take 1 ++ if 1 < out.length then out.getLast?.toList else []
  let inner := out.length - 2
  let need := maxFrames - ends.length
  if 0 < inner ∧ 0 < need then
    ends ++ (List.range need).map fun k =>
      out.getD (min (1 + k * inner / need) (out.length - 2)) 0
  else ends

/-- Thin out what is too much. -/
def thin (out : List Nat) (maxFrames : Nat) : List Nat :=
  let keep := ((keepSpaced out maxFrames).insertionSort (· ≤ ·)).destutter
    (· ≠ ·)
  if maxFrames < keep.length then keep.take maxFrames else keep

/-- Fill up what is too little. -/
def fill (n maxFrames : Nat) (out : List Nat) : List Nat :=
  if out.length < maxFrames then
    let idx := out.length * (n - 1) / max maxFrames 1
    if idx ∉ out then fill n maxFrames (out ++ [idx])
    else
      match (List.range n).find? (· ∉ out) with
      | some i => fill n maxFrames (out ++ [i])
      | none => out
  else out
termination_by maxFrames - out.length
decreasing_by
  all_goals
    rw [List.length_append, List.length_singleton]
    omega

/-- Pick up to `max_frames` indices: scene cuts first, then uniform fill. -/
def pickIndices (n maxFrames : Nat) (distances : List Distance)
    (thresh : Distance) : List Nat :=
  if n = 0 ∨ maxFrames = 0 then []
  else
    let maxFrames := min maxFrames n
    let out := positions (markFrames n distances thresh)
    if maxFrames < out.length then thin out maxFrames
    else (fill n maxFrames out).insertionSort (· ≤ ·)

/-! ## What is picked -/

/-- A frame behind a distance that reaches the threshold. -/
def IsCut (distances : List Distance) (thresh : Distance) (frame : Nat) :
    Prop :=
  ∃ i d, distances[i]? = some d ∧ thresh ≤ d ∧ i + 1 = frame

/-- The first, the last, or a cut. -/
def Marked (n : Nat) (distances : List Distance) (thresh : Distance)
    (frame : Nat) : Prop :=
  frame = 0 ∨ frame = n - 1 ∨ IsCut distances thresh frame

open scoped Classical in
/-- How many frames are the first, the last, or a cut. -/
noncomputable def markedCount (n : Nat) (distances : List Distance)
    (thresh : Distance) : Nat :=
  ((Finset.range n).filter (Marked n distances thresh)).card

/-- The choice is exact. -/
structure Exact (n maxFrames : Nat) (distances : List Distance)
    (thresh : Distance) (picked : List Nat) : Prop where
  increasing : picked.Pairwise (· < ·)
  below : ∀ frame ∈ picked, frame < n
  count : picked.length = min maxFrames n
  first : 0 ∈ picked
  last : 2 ≤ maxFrames → n - 1 ∈ picked
  cuts : markedCount n distances thresh ≤ maxFrames →
    ∀ frame < n, IsCut distances thresh frame → frame ∈ picked
  only : maxFrames < markedCount n distances thresh →
    ∀ frame ∈ picked, Marked n distances thresh frame

/-! ## The marks -/

section

variable {n maxFrames : Nat} {distances : List Distance} {thresh : Distance}

theorem length_markEnds : (markEnds n).length = n := by
  unfold markEnds
  split <;> simp

theorem length_markCut {chosen : List Bool} {found : Distance × Nat} :
    (markCut n thresh chosen found).length = chosen.length := by
  unfold markCut
  split
  · split
    · exact List.length_set
    · rfl
  · rfl

theorem marked_set {chosen : List Bool} {mark frame : Nat}
    (inside : mark < chosen.length) :
    (chosen.set mark true)[frame]? = some true ↔
      chosen[frame]? = some true ∨ frame = mark := by
  rw [List.getElem?_set]
  by_cases same : mark = frame
  · rw [if_pos same, if_pos inside]
    exact iff_of_true rfl (Or.inr same.symm)
  · rw [if_neg same]
    exact (or_iff_left (Ne.symm same)).symm

theorem marked_markCut {chosen : List Bool} (size : chosen.length = n)
    {found : Distance × Nat} {frame : Nat} :
    (markCut n thresh chosen found)[frame]? = some true ↔
      chosen[frame]? = some true ∨
        frame < n ∧ thresh ≤ found.1 ∧ found.2 + 1 = frame := by
  unfold markCut
  split
  case isTrue cut =>
    split
    case isTrue inside =>
      rw [marked_set (size ▸ inside)]
      apply or_congr_right
      constructor
      · rintro rfl
        exact ⟨inside, cut, rfl⟩
      · exact fun mark => mark.2.2.symm
    case isFalse outside =>
      refine (or_iff_left ?_).symm
      rintro ⟨inside, -, rfl⟩
      exact outside inside
  case isFalse quiet =>
    refine (or_iff_left ?_).symm
    rintro ⟨-, cut, -⟩
    exact quiet cut

theorem marked_foldl {chosen : List Bool} (size : chosen.length = n)
    (found : List (Distance × Nat)) {frame : Nat} :
    (found.foldl (markCut n thresh) chosen)[frame]? = some true ↔
      chosen[frame]? = some true ∨
        frame < n ∧ ∃ mark ∈ found, thresh ≤ mark.1 ∧ mark.2 + 1 = frame := by
  induction found generalizing chosen with
  | nil => simp
  | cons mark rest induction =>
      rw [List.foldl_cons, induction (length_markCut.trans size),
        marked_markCut size, List.exists_mem_cons_iff, or_assoc, and_or_left]

theorem marked_markEnds (some : 0 < n) {frame : Nat} :
    (markEnds n)[frame]? = Option.some true ↔
      frame = 0 ∨ frame = n - 1 := by
  have blank : (List.replicate n false)[frame]? ≠ Option.some true := by
    rw [List.getElem?_replicate]
    split <;> simp
  have first : ((List.replicate n false).set 0 true)[frame]? =
      Option.some true ↔ frame = 0 := by
    rw [marked_set (List.length_replicate ▸ some), or_iff_right blank]
  unfold markEnds
  split
  case isTrue more =>
    rw [marked_set, first]
    rw [List.length_set, List.length_replicate]
    omega
  case isFalse one =>
    rw [first]
    omega

/-- The marks are the first frame, the last, and the cuts. -/
theorem marked_markFrames (some : 0 < n) {frame : Nat} :
    (markFrames n distances thresh)[frame]? = Option.some true ↔
      frame < n ∧ Marked n distances thresh frame := by
  have cut : (∃ mark ∈ distances.zipIdx, thresh ≤ mark.1 ∧
      mark.2 + 1 = frame) ↔ IsCut distances thresh frame := by
    constructor
    · rintro ⟨⟨d, i⟩, found, reaches, rfl⟩
      exact ⟨i, d, List.mk_mem_zipIdx_iff_getElem?.mp found, reaches, rfl⟩
    · rintro ⟨i, d, found, reaches, rfl⟩
      exact ⟨(d, i), List.mk_mem_zipIdx_iff_getElem?.mpr found, reaches, rfl⟩
  rw [markFrames, marked_foldl length_markEnds, marked_markEnds some, cut,
    Marked]
  constructor
  · rintro ((rfl | rfl) | ⟨inside, cut⟩)
    · exact ⟨some, Or.inl rfl⟩
    · exact ⟨Nat.sub_one_lt_of_lt some, Or.inr (Or.inl rfl)⟩
    · exact ⟨inside, Or.inr (Or.inr cut)⟩
  · rintro ⟨inside, first | last | cut⟩
    · exact Or.inl (Or.inl first)
    · exact Or.inl (Or.inr last)
    · exact Or.inr ⟨inside, cut⟩

theorem mem_positions {chosen : List Bool} {frame : Nat} :
    frame ∈ positions chosen ↔ chosen[frame]? = some true := by
  rw [positions, List.mem_map]
  constructor
  · rintro ⟨⟨mark, i⟩, member, rfl⟩
    rcases List.mem_filter.mp member with ⟨found, marked⟩
    rw [← show mark = true from marked]
    exact List.mk_mem_zipIdx_iff_getElem?.mp found
  · intro marked
    exact ⟨(true, frame), List.mem_filter.mpr
      ⟨List.mk_mem_zipIdx_iff_getElem?.mpr marked, rfl⟩, rfl⟩

theorem increasing_positions (chosen : List Bool) :
    (positions chosen).Pairwise (· < ·) := by
  have sub : (positions chosen).Sublist (chosen.zipIdx.map Prod.snd) :=
    List.filter_sublist.map Prod.snd
  rw [List.zipIdx_map_snd] at sub
  exact List.Pairwise.sublist sub List.pairwise_lt_range'

/-- The count is that of the positions. -/
theorem length_positions (some : 0 < n) :
    (positions (markFrames n distances thresh)).length =
      markedCount n distances thresh := by
  classical
  have nodup : (positions (markFrames n distances thresh)).Nodup :=
    (increasing_positions _).imp Nat.ne_of_lt
  rw [← List.toFinset_card_of_nodup nodup, markedCount]
  congr 1
  ext frame
  rw [List.mem_toFinset, mem_positions, marked_markFrames some,
    Finset.mem_filter, Finset.mem_range]

/-! ## Too many -/

/-- Evenly spaced positions are different where they are not too many. -/
theorem spaced_lt {inner need k l : Nat} (some : 0 < need)
    (room : need ≤ inner) (less : k < l) :
    k * inner / need < l * inner / need := by
  have step : k * inner + need ≤ l * inner :=
    calc k * inner + need
      _ ≤ k * inner + inner := Nat.add_le_add_left room _
      _ = (k + 1) * inner := (Nat.succ_mul k inner).symm
      _ ≤ l * inner := Nat.mul_le_mul_right inner less
  calc k * inner / need
    _ < k * inner / need + 1 := Nat.lt_succ_self _
    _ = (k * inner + need) / need := (Nat.add_div_right _ some).symm
    _ ≤ l * inner / need := Nat.div_le_div_right step

theorem spaced_lt_inner {inner need k : Nat} (room : 0 < inner)
    (less : k < need) : k * inner / need < inner := by
  rw [Nat.div_lt_iff_lt_mul (Nat.zero_lt_of_lt less), Nat.mul_comm inner]
  exact Nat.mul_lt_mul_of_pos_right less room

/-- The positions in the list of those that are kept. -/
def spacedPositions (count maxFrames : Nat) : List Nat :=
  0 :: (count - 1) ::
    (List.range (maxFrames - 2)).map fun k =>
      1 + k * (count - 2) / (maxFrames - 2)

section

variable {count : Nat}

/-- What is kept between the ends is between the ends. -/
theorem mem_spaced {i : Nat} (less : maxFrames < count)
    (member : i ∈ (List.range (maxFrames - 2)).map fun k =>
      1 + k * (count - 2) / (maxFrames - 2)) :
    0 < i ∧ i < count - 1 := by
  rcases List.mem_map.mp member with ⟨k, inside, rfl⟩
  have inside := List.mem_range.mp inside
  have room : 0 < count - 2 := by omega
  have between := spaced_lt_inner room inside
  generalize k * (count - 2) / (maxFrames - 2) = step at between ⊢
  omega

theorem spacedPositions_lt (many : 2 ≤ count) (less : maxFrames < count) :
    ∀ i ∈ spacedPositions count maxFrames, i < count := by
  intro i member
  rcases List.mem_cons.mp member with rfl | member
  · omega
  · rcases List.mem_cons.mp member with rfl | member
    · omega
    · have := mem_spaced less member
      omega

theorem nodup_spacedPositions (many : 2 ≤ count) (less : maxFrames < count) :
    (spacedPositions count maxFrames).Nodup := by
  rw [spacedPositions, List.nodup_cons, List.nodup_cons]
  refine ⟨?_, ?_, ?_⟩
  · intro member
    rcases List.mem_cons.mp member with same | member
    · omega
    · exact absurd (mem_spaced less member).1 (lt_irrefl 0)
  · intro member
    exact absurd (mem_spaced less member).2 (lt_irrefl _)
  · apply List.Nodup.map_on ?_ List.nodup_range
    intro k inside l _ same
    have some : 0 < maxFrames - 2 :=
      Nat.zero_lt_of_lt (List.mem_range.mp inside)
    have room : maxFrames - 2 ≤ count - 2 := by omega
    have same := Nat.add_left_cancel same
    rcases lt_trichotomy k l with less | equal | more
    · exact absurd same (spaced_lt some room less).ne
    · exact equal
    · exact absurd same (spaced_lt some room more).ne'

end

section

variable {out : List Nat}

theorem ends_eq (many : 2 ≤ out.length) :
    out.take 1 ++ (if 1 < out.length then out.getLast?.toList else []) =
      [out.getD 0 0, out.getD (out.length - 1) 0] := by
  have some : 0 < out.length := by omega
  have inside : out.length - 1 < out.length := by omega
  rw [if_pos (show 1 < out.length from many), List.getLast?_eq_getElem?,
    List.getElem?_eq_getElem inside, Option.toList_some,
    List.take_one, List.head?_eq_getElem?, List.getElem?_eq_getElem some,
    List.getD_eq_getElem _ _ some, List.getD_eq_getElem _ _ inside]
  rfl

theorem keepSpaced_eq (many : 2 ≤ out.length) (less : maxFrames < out.length) :
    keepSpaced out maxFrames =
      (spacedPositions out.length maxFrames).map (out.getD · 0) := by
  simp only [keepSpaced, ends_eq many, List.length_cons, List.length_nil,
    Nat.zero_add, Nat.reduceAdd, spacedPositions, List.map_cons,
    List.map_map]
  split
  case isTrue room =>
    rw [List.cons_append, List.cons_append, List.nil_append]
    congr 2
    apply List.map_congr_left
    intro k inside
    have between := spaced_lt_inner room.1 (List.mem_range.mp inside)
    rw [Function.comp_apply, Nat.min_eq_left]
    rw [Nat.add_comm]
    exact between
  case isFalse none =>
    have zero : maxFrames - 2 = 0 := by omega
    rw [zero]
    rfl

theorem getD_lt (increasing : out.Pairwise (· < ·)) {i j : Nat} (less : i < j)
    (inside : j < out.length) : out.getD i 0 < out.getD j 0 := by
  rw [List.getD_eq_getElem _ _ (less.trans inside),
    List.getD_eq_getElem _ _ inside]
  exact List.pairwise_iff_getElem.mp increasing i j _ inside less

theorem getD_zero_le (increasing : out.Pairwise (· < ·)) {frame : Nat}
    (member : frame ∈ out) : out.getD 0 0 ≤ frame := by
  rcases List.mem_iff_getElem.mp member with ⟨i, inside, rfl⟩
  rw [← List.getD_eq_getElem _ 0 inside]
  rcases Nat.eq_zero_or_pos i with rfl | later
  · exact le_rfl
  · exact (getD_lt increasing later inside).le

theorem nodup_keepSpaced (increasing : out.Pairwise (· < ·))
    (many : 2 ≤ out.length) (less : maxFrames < out.length) :
    (keepSpaced out maxFrames).Nodup := by
  rw [keepSpaced_eq many less]
  apply List.Nodup.map_on ?_ (nodup_spacedPositions many less)
  intro i first j second same
  rcases lt_trichotomy i j with before | equal | behind
  · exact absurd same
      (getD_lt increasing before (spacedPositions_lt many less j second)).ne
  · exact equal
  · exact absurd same
      (getD_lt increasing behind (spacedPositions_lt many less i first)).ne'

theorem keepSpaced_subset (many : 2 ≤ out.length)
    (less : maxFrames < out.length) : keepSpaced out maxFrames ⊆ out := by
  rw [keepSpaced_eq many less]
  intro frame member
  rcases List.mem_map.mp member with ⟨i, inside, rfl⟩
  rw [List.getD_eq_getElem _ _ (spacedPositions_lt many less i inside)]
  exact List.getElem_mem _

/-- What is kept of too many: as many as there may be, the first among them,
and the last if there may be two. -/
structure Thinned (out : List Nat) (maxFrames : Nat) (kept : List Nat) :
    Prop where
  increasing : kept.Pairwise (· < ·)
  sub : kept ⊆ out
  count : kept.length = maxFrames
  first : out.getD 0 0 ∈ kept
  last : 2 ≤ maxFrames → out.getD (out.length - 1) 0 ∈ kept

theorem sorted_of_nodup {keep : List Nat} (nodup : keep.Nodup) :
    (keep.insertionSort (· ≤ ·)).Pairwise (· < ·) := by
  have distinct : (keep.insertionSort (· ≤ ·)).Nodup :=
    (List.perm_insertionSort (· ≤ ·) keep).nodup_iff.mpr nodup
  exact ((List.pairwise_insertionSort (· ≤ ·) keep).and distinct).imp
    fun both => Nat.lt_of_le_of_ne both.1 both.2

/-- Nothing is there twice, so the first ones are what is left. -/
theorem thin_eq (nodup : (keepSpaced out maxFrames).Nodup) :
    thin out maxFrames =
      ((keepSpaced out maxFrames).insertionSort (· ≤ ·)).take maxFrames := by
  have distinct :
      ((keepSpaced out maxFrames).insertionSort (· ≤ ·)).destutter (· ≠ ·) =
        (keepSpaced out maxFrames).insertionSort (· ≤ ·) :=
    List.destutter_of_isChain _ _
      ((sorted_of_nodup nodup).imp Nat.ne_of_lt).isChain
  simp only [thin, distinct]
  split
  · rfl
  case isFalse few => exact (List.take_of_length_le (not_lt.mp few)).symm

theorem thinned_thin (increasing : out.Pairwise (· < ·))
    (some : 0 < maxFrames) (less : maxFrames < out.length) :
    Thinned out maxFrames (thin out maxFrames) := by
  have many : 2 ≤ out.length := by omega
  have nodup := nodup_keepSpaced increasing many less
  have sorted := sorted_of_nodup nodup
  have sub := keepSpaced_subset many less
  have size : (keepSpaced out maxFrames).length = 2 + (maxFrames - 2) := by
    rw [keepSpaced_eq many less, List.length_map, spacedPositions,
      List.length_cons, List.length_cons, List.length_map, List.length_range]
    omega
  have first : out.getD 0 0 ∈ keepSpaced out maxFrames := by
    rw [keepSpaced_eq many less]
    exact List.mem_map_of_mem List.mem_cons_self
  have last : out.getD (out.length - 1) 0 ∈ keepSpaced out maxFrames := by
    rw [keepSpaced_eq many less]
    exact List.mem_map_of_mem (List.mem_cons_of_mem _ List.mem_cons_self)
  rw [thin_eq nodup]
  have perm := List.perm_insertionSort (· ≤ ·) (keepSpaced out maxFrames)
  generalize (keepSpaced out maxFrames).insertionSort (· ≤ ·) = kept
    at sorted perm ⊢
  have size := perm.length_eq.trans size
  constructor
  · exact sorted.sublist (List.take_sublist _ _)
  · exact fun frame member =>
      sub (perm.subset (List.take_subset _ _ member))
  · rw [List.length_take, size]
    omega
  · cases kept with
    | nil => exact absurd (perm.mem_iff.mpr first) List.not_mem_nil
    | cons head rest =>
        have least := getD_zero_le increasing
          (sub (perm.subset List.mem_cons_self))
        rcases List.mem_cons.mp (perm.mem_iff.mpr first) with same | inside
        · rw [same]
          rw [List.take_cons some]
          exact List.mem_cons_self
        · exact absurd ((List.pairwise_cons.mp sorted).1 _ inside)
            (not_lt.mpr least)
  · intro two
    rw [List.take_of_length_le (by omega)]
    exact perm.mem_iff.mpr last

end

/-! ## Too few -/

/-- Where not all frames are there, one is free. -/
theorem exists_free {out : List Nat} (few : out.length < n) :
    ∃ i < n, i ∉ out := by
  by_contra none
  push Not at none
  have all : List.range n ⊆ out := fun i inside =>
    none i (List.mem_range.mp inside)
  have room := (List.nodup_range.subperm all).length_le
  rw [List.length_range] at room
  exact absurd few (not_lt.mpr room)

/-- Frames that are all different, with room for more. -/
structure Room (n maxFrames : Nat) (out : List Nat) : Prop where
  nodup : out.Nodup
  below : ∀ frame ∈ out, frame < n
  few : out.length ≤ maxFrames

theorem Room.append {out : List Nat} (room : Room n maxFrames out) {i : Nat}
    (inside : i < n) (free : i ∉ out) (few : out.length < maxFrames) :
    Room n maxFrames (out ++ [i]) where
  nodup := List.nodup_append_comm.mp (List.nodup_cons.mpr ⟨free, room.nodup⟩)
  below := List.forall_mem_append.mpr
    ⟨room.below, List.forall_mem_singleton.mpr inside⟩
  few := by
    rw [List.length_append, List.length_singleton]
    exact few

/-- The formula names a frame. -/
theorem spread_lt {k : Nat} (few : k < maxFrames) (whole : maxFrames ≤ n) :
    k * (n - 1) / max maxFrames 1 < n := by
  have some : 0 < n := Nat.zero_lt_of_lt (Nat.lt_of_lt_of_le few whole)
  apply Nat.div_lt_of_lt_mul
  calc k * (n - 1)
    _ ≤ k * n := Nat.mul_le_mul_left k (Nat.sub_le n 1)
    _ < max maxFrames 1 * n :=
      Nat.mul_lt_mul_of_pos_right
        (Nat.lt_of_lt_of_le few (Nat.le_max_left _ _)) some

/-- Up to `2 ^ 32` frames the products of the formulas are machine words. -/
theorem product_lt {k : Nat} (few : k < maxFrames) (whole : maxFrames ≤ n)
    (frames : n ≤ 2 ^ 32) : k * (n - 1) < 2 ^ 64 := by
  have some : 0 < n := Nat.zero_lt_of_lt (Nat.lt_of_lt_of_le few whole)
  calc k * (n - 1)
    _ ≤ n * (n - 1) := Nat.mul_le_mul_right _ (few.le.trans whole)
    _ < n * n := Nat.mul_lt_mul_of_pos_left (Nat.sub_one_lt_of_lt some) some
    _ ≤ 2 ^ 32 * 2 ^ 32 := Nat.mul_le_mul frames frames
    _ = 2 ^ 64 := by rw [← Nat.pow_add]

/-- What is filled up holds what was there, and is as much as there may be. -/
theorem room_fill (whole : maxFrames ≤ n) {out : List Nat}
    (room : Room n maxFrames out) :
    Room n maxFrames (fill n maxFrames out) ∧
      (fill n maxFrames out).length = maxFrames ∧
        out ⊆ fill n maxFrames out := by
  fun_induction fill n maxFrames out with
  | case1 out few idx free induction =>
      have inside : idx < n := spread_lt few whole
      rcases induction (room.append inside free few) with ⟨filled, size, sub⟩
      exact ⟨filled, size, fun frame member =>
        sub (List.mem_append_left _ member)⟩
  | case2 out few idx taken i found induction =>
      have inside : i < n :=
        List.mem_range.mp (List.mem_of_find?_eq_some found)
      have free : decide (i ∉ out) = true := by
        simpa using List.find?_some found
      have free := of_decide_eq_true free
      rcases induction (room.append inside free few) with ⟨filled, size, sub⟩
      exact ⟨filled, size, fun frame member =>
        sub (List.mem_append_left _ member)⟩
  | case3 out few idx taken none =>
      rcases exists_free (Nat.lt_of_lt_of_le few whole) with ⟨i, inside, free⟩
      have taken := List.find?_eq_none.mp none i (List.mem_range.mpr inside)
      exact absurd (decide_eq_true free) taken
  | case4 out full =>
      exact ⟨room, Nat.le_antisymm room.few (not_lt.mp full),
        fun frame member => member⟩

/-! ## The choice -/

theorem le_getD_last {out : List Nat} (increasing : out.Pairwise (· < ·))
    {frame : Nat} (member : frame ∈ out) :
    frame ≤ out.getD (out.length - 1) 0 := by
  rcases List.mem_iff_getElem.mp member with ⟨i, inside, rfl⟩
  rw [← List.getD_eq_getElem _ 0 inside]
  rcases Nat.lt_or_ge i (out.length - 1) with before | last
  · exact (getD_lt increasing before (by omega)).le
  · exact (congrArg (out.getD · 0) (show i = out.length - 1 by omega)).le

omit [DecidableLE Distance] in
theorem markedCount_le : markedCount n distances thresh ≤ n := by
  classical
  unfold markedCount
  exact (Finset.card_filter_le _ _).trans (Finset.card_range n).le

/-- The marks in order: the first and the last frame are at the ends. -/
structure Marks (n : Nat) (distances : List Distance) (thresh : Distance)
    (out : List Nat) : Prop where
  increasing : out.Pairwise (· < ·)
  mem : ∀ frame, frame ∈ out ↔
    frame < n ∧ Marked n distances thresh frame
  count : out.length = markedCount n distances thresh

theorem marks_positions (frames : 0 < n) :
    Marks n distances thresh (positions (markFrames n distances thresh)) where
  increasing := increasing_positions _
  mem _ := mem_positions.trans (marked_markFrames frames)
  count := length_positions frames

section

variable {out : List Nat}

omit [DecidableLE Distance] in
theorem Marks.first_mem (marks : Marks n distances thresh out)
    (frames : 0 < n) : 0 ∈ out :=
  (marks.mem 0).mpr ⟨frames, Or.inl rfl⟩

omit [DecidableLE Distance] in
theorem Marks.last_mem (marks : Marks n distances thresh out)
    (frames : 0 < n) : n - 1 ∈ out :=
  (marks.mem (n - 1)).mpr ⟨Nat.sub_one_lt_of_lt frames, Or.inr (Or.inl rfl)⟩

omit [DecidableLE Distance] in
theorem Marks.first (marks : Marks n distances thresh out) (frames : 0 < n) :
    out.getD 0 0 = 0 :=
  Nat.le_zero.mp (getD_zero_le marks.increasing (marks.first_mem frames))

omit [DecidableLE Distance] in
theorem Marks.last (marks : Marks n distances thresh out) (frames : 0 < n) :
    out.getD (out.length - 1) 0 = n - 1 := by
  have member := marks.last_mem frames
  have some : out.length - 1 < out.length :=
    Nat.sub_one_lt_of_lt (List.length_pos_of_mem member)
  have inside : out.getD (out.length - 1) 0 < n := by
    rw [List.getD_eq_getElem _ _ some]
    exact ((marks.mem _).mp (List.getElem_mem some)).1
  exact Nat.le_antisymm (Nat.le_sub_one_of_lt inside)
    (le_getD_last marks.increasing member)

omit [DecidableLE Distance] in
/-- Too many marks. -/
theorem Marks.exact_thin (marks : Marks n distances thresh out)
    (frames : 0 < n) (most : 0 < maxFrames)
    (many : min maxFrames n < out.length) :
    Exact n maxFrames distances thresh (thin out (min maxFrames n)) := by
  have inside : out.length ≤ n := marks.count.trans_le markedCount_le
  have cap : min maxFrames n = maxFrames := by omega
  rw [cap] at many ⊢
  have kept := thinned_thin marks.increasing most many
  constructor
  · exact kept.increasing
  · exact fun frame member => ((marks.mem frame).mp (kept.sub member)).1
  · rw [kept.count, cap]
  · rw [← marks.first frames]
    exact kept.first
  · intro two
    rw [← marks.last frames]
    exact kept.last two
  · intro fit
    rw [← marks.count] at fit
    exact absurd many (not_lt.mpr fit)
  · exact fun _ frame member =>
      ((marks.mem frame).mp (kept.sub member)).2

omit [DecidableLE Distance] in
/-- Room for all marks. -/
theorem Marks.exact_fill (marks : Marks n distances thresh out)
    (frames : 0 < n) (few : out.length ≤ min maxFrames n) :
    Exact n maxFrames distances thresh
      ((fill n (min maxFrames n) out).insertionSort (· ≤ ·)) := by
  have room : Room n (min maxFrames n) out :=
    ⟨marks.increasing.imp Nat.ne_of_lt,
      fun frame member => ((marks.mem frame).mp member).1, few⟩
  rcases room_fill (Nat.min_le_right _ _) room with ⟨filled, size, sub⟩
  have perm := List.perm_insertionSort (· ≤ ·)
    (fill n (min maxFrames n) out)
  constructor
  · exact sorted_of_nodup filled.nodup
  · exact fun frame member => filled.below frame (perm.subset member)
  · rw [perm.length_eq, size]
  · exact perm.mem_iff.mpr (sub (marks.first_mem frames))
  · exact fun _ => perm.mem_iff.mpr (sub (marks.last_mem frames))
  · intro _ frame inside cut
    exact perm.mem_iff.mpr
      (sub ((marks.mem frame).mpr ⟨inside, Or.inr (Or.inr cut)⟩))
  · intro more
    rw [← marks.count] at more
    omega

end

end

/-- The marks, thinned out or filled up. -/
theorem Marks.exact {n maxFrames : Nat} {distances : List Distance}
    {thresh : Distance}
    (marks : Marks n distances thresh
      (positions (markFrames n distances thresh)))
    (frames : 0 < n) (most : 0 < maxFrames) :
    Exact n maxFrames distances thresh
      (pickIndices n maxFrames distances thresh) := by
  have known : ¬ (n = 0 ∨ maxFrames = 0) := by omega
  rw [pickIndices, if_neg known]
  simp only []
  split
  case isTrue many => exact marks.exact_thin frames most many
  case isFalse few => exact marks.exact_fill frames (not_lt.mp few)

/-- The frames that are picked are as many as there may be, with the ends, and
with the cuts or from them. -/
theorem exact_pickIndices {n maxFrames : Nat} (frames : 0 < n)
    (most : 0 < maxFrames) (distances : List Distance) (thresh : Distance) :
    Exact n maxFrames distances thresh
      (pickIndices n maxFrames distances thresh) :=
  (marks_positions frames).exact frames most

/-- Eight frames that all differ: the ends and two of the rest. -/
theorem exact_pickIndices_eight :
    pickIndices 8 4 [1, 1, 1, 1, 1, 1, 1] 1 = [0, 1, 4, 7] ∧
      Exact 8 4 [1, 1, 1, 1, 1, 1, 1] 1
        (pickIndices 8 4 [1, 1, 1, 1, 1, 1, 1] 1) := by
  refine ⟨by decide +kernel, ?_⟩
  exact exact_pickIndices (by decide) (by decide) _ _

/-! ## The frames -/

structure Frame (Time : Type) where
  tSec : Time
  width : UInt32
  height : UInt32
  rgb : List UInt8

/-- `VideoOpts`, without the rate of the frames. -/
structure VideoOpts (Distance : Type) where
  maxFrames : Nat
  imageSize : UInt32
  sceneThresh : Distance

section

variable {Time : Type}
  (histogramL1 : List UInt8 → List UInt8 → Distance)
  (resizeRgb : List UInt8 → UInt32 → UInt32 → UInt32 → UInt32 → List UInt8)

def resized (imageSize : UInt32) (frame : Frame Time) : Frame Time :=
  if frame.width ≠ imageSize ∨ frame.height ≠ imageSize then
    { frame with
      rgb := resizeRgb frame.rgb frame.width frame.height imageSize imageSize
      width := imageSize
      height := imageSize }
  else frame

/-- The indices that `select_and_resize` keeps. -/
def keptIndices (frames : List (Frame Time)) (opts : VideoOpts Distance) :
    List Nat :=
  pickIndices frames.length opts.maxFrames
    (List.zipWith (fun left right => histogramL1 left.rgb right.rgb) frames
      frames.tail)
    opts.sceneThresh

def selectAndResize (frames : List (Frame Time))
    (opts : VideoOpts Distance) : List (Frame Time) :=
  if frames.isEmpty then frames
  else
    let idx := keptIndices histogramL1 frames opts
    (frames.zipIdx.filter (·.2 ∈ idx)).map fun found =>
      resized resizeRgb opts.imageSize found.1

/-- What is kept by its index is at the indices, in order. -/
theorem map_snd_kept {α : Type} (items : List α) {idx : List Nat}
    (increasing : idx.Pairwise (· < ·))
    (below : ∀ i ∈ idx, i < items.length) :
    (items.zipIdx.filter (·.2 ∈ idx)).map Prod.snd = idx := by
  have split : (items.zipIdx.filter (·.2 ∈ idx)).map Prod.snd =
      (List.range' 0 items.length).filter (· ∈ idx) := by
    rw [← List.zipIdx_map_snd 0 items, List.filter_map]
    rfl
  have order : ((List.range' 0 items.length).filter (· ∈ idx)).Pairwise
      (· < ·) :=
    List.Pairwise.sublist List.filter_sublist List.pairwise_lt_range'
  rw [split]
  apply order.eq_of_mem_iff increasing
  intro i
  rw [List.mem_filter, List.mem_range'_1, decide_eq_true_eq]
  constructor
  · exact And.right
  · exact fun member =>
      ⟨⟨Nat.zero_le i, (Nat.zero_add _).symm ▸ below i member⟩, member⟩

/-- As many frames are kept as there may be, each of the size that is set. -/
theorem length_selectAndResize (frames : List (Frame Time))
    (opts : VideoOpts Distance) (most : 0 < opts.maxFrames) :
    (selectAndResize histogramL1 resizeRgb frames opts).length =
      min opts.maxFrames frames.length := by
  cases frames with
  | nil => exact (Nat.min_zero _).symm
  | cons frame rest =>
      have some : 0 < (frame :: rest).length := Nat.zero_lt_succ _
      have kept : Exact (frame :: rest).length opts.maxFrames _
          opts.sceneThresh (keptIndices histogramL1 (frame :: rest) opts) :=
        (marks_positions some).exact some most
      have size := congrArg List.length
        (map_snd_kept (frame :: rest) kept.increasing kept.below)
      rw [List.length_map, kept.count] at size
      calc (selectAndResize histogramL1 resizeRgb (frame :: rest) opts).length
        _ = _ := List.length_map _
        _ = min opts.maxFrames (frame :: rest).length := size

end

end Runa.Media.FrameChoice
