import Mathlib.Data.List.Basic

/-!
# Merging spans

Spans of positions, the newest first.  A span that begins soon behind the
newest one is merged into it.  The spans stay apart from each other, and what
a span covers stays covered (`push_apart`, `push_covers`).
-/

namespace Runa.Packing.Spans

/-- Inclusive start, exclusive stop. -/
structure Span where
  start : Nat
  stop : Nat
deriving DecidableEq, Repr

/-- A range of positions that a span covers. -/
def Span.Covers (span : Span) (start stop : Nat) : Prop :=
  span.start ≤ start ∧ stop ≤ span.stop

/-- Put a span behind the newest, or merge it into that. -/
def push (gap : Nat) : List Span → Span → List Span
  | [], span => [span]
  | last :: earlier, span =>
    if span.start ≤ last.stop + gap then
      { last with stop := span.stop } :: earlier
    else
      span :: last :: earlier

/-- Increasing, with more than a gap in between; the newest is first. -/
def Apart (gap : Nat) (spans : List Span) : Prop :=
  spans.Pairwise fun later earlier => earlier.stop + gap < later.start

/-- A span begins and ends no earlier than the newest. -/
def Behind (spans : List Span) (span : Span) : Prop :=
  ∀ last ∈ spans.head?, last.start ≤ span.start ∧ last.stop ≤ span.stop

variable {gap : Nat} {spans : List Span} {span : Span}

theorem push_ne_nil : push gap spans span ≠ [] := by
  cases spans with
  | nil => exact List.cons_ne_nil _ _
  | cons last earlier =>
      rw [push]
      split <;> exact List.cons_ne_nil _ _

/-- The new span is a whole, or the end of the newest one. -/
theorem head_push (behind : Behind spans span) :
    ∃ newest, (push gap spans span).head? = some newest ∧
      newest.start ≤ span.start ∧ newest.stop = span.stop := by
  cases spans with
  | nil => exact ⟨span, rfl, Nat.le_refl _, rfl⟩
  | cons last earlier =>
      rw [push]
      split
      · exact ⟨_, rfl, (behind last rfl).1, rfl⟩
      · exact ⟨span, rfl, Nat.le_refl _, rfl⟩

/-- Spans that were apart stay so. -/
theorem push_apart (behind : Behind spans span) (apart : Apart gap spans) :
    Apart gap (push gap spans span) := by
  cases spans with
  | nil => exact List.pairwise_singleton _ _
  | cons last earlier =>
      rcases List.pairwise_cons.mp apart with ⟨front, rest⟩
      rw [push]
      split
      case isTrue near => exact List.pairwise_cons.mpr ⟨front, rest⟩
      case isFalse far =>
        refine List.pairwise_cons.mpr ⟨?_, apart⟩
        intro other member
        rcases List.mem_cons.mp member with rfl | member
        · exact Nat.lt_of_not_le far
        · exact Nat.lt_of_lt_of_le (front other member) (behind last rfl).1

/-- Where spans begin and end. -/
theorem push_ends {Starts Stops : Nat → Prop}
    (each : ∀ other ∈ spans, Starts other.start ∧ Stops other.stop)
    (here : Starts span.start ∧ Stops span.stop) :
    ∀ other ∈ push gap spans span,
      Starts other.start ∧ Stops other.stop := by
  cases spans with
  | nil => exact List.forall_mem_singleton.mpr here
  | cons last earlier =>
      rcases List.forall_mem_cons.mp each with ⟨newest, others⟩
      rw [push]
      split
      · exact List.forall_mem_cons.mpr ⟨⟨newest.1, here.2⟩, others⟩
      · exact List.forall_mem_cons.mpr ⟨here, each⟩

/-- No span becomes empty. -/
theorem push_nonempty (behind : Behind spans span)
    (each : ∀ other ∈ spans, other.start < other.stop)
    (here : span.start < span.stop) :
    ∀ other ∈ push gap spans span, other.start < other.stop := by
  cases spans with
  | nil => exact List.forall_mem_singleton.mpr here
  | cons last earlier =>
      rcases List.forall_mem_cons.mp each with ⟨-, others⟩
      rw [push]
      split
      · exact
          List.forall_mem_cons.mpr
            ⟨Nat.lt_of_le_of_lt (behind last rfl).1 here, others⟩
      · exact List.forall_mem_cons.mpr ⟨here, each⟩

/-- What was covered is covered still, and so is the new span. -/
theorem push_covers (behind : Behind spans span) {start stop : Nat}
    (covered :
      (∃ other ∈ spans, other.Covers start stop) ∨ span.Covers start stop) :
    ∃ other ∈ push gap spans span, other.Covers start stop := by
  cases spans with
  | nil =>
      rcases covered with ⟨_, member, _⟩ | covers
      · exact absurd member List.not_mem_nil
      · exact ⟨span, List.mem_singleton_self _, covers⟩
  | cons last earlier =>
      rw [push]
      split
      case isTrue near =>
        rcases covered with ⟨other, member, covers⟩ | covers
        · rcases List.mem_cons.mp member with rfl | member
          · exact
              ⟨_, List.mem_cons_self, covers.1,
                Nat.le_trans covers.2 (behind other rfl).2⟩
          · exact ⟨other, List.mem_cons_of_mem _ member, covers⟩
        · exact
            ⟨_, List.mem_cons_self,
              Nat.le_trans (behind last rfl).1 covers.1, covers.2⟩
      case isFalse far =>
        rcases covered with ⟨other, member, covers⟩ | covers
        · exact ⟨other, List.mem_cons_of_mem _ member, covers⟩
        · exact ⟨span, List.mem_cons_self, covers⟩

/-- Two of the spans are one, or more than a gap apart. -/
theorem Apart.either (apart : Apart gap spans) {one other : Span}
    (here : one ∈ spans) (there : other ∈ spans) :
    one = other ∨ one.stop + gap < other.start ∨
      other.stop + gap < one.start := by
  induction spans with
  | nil => exact absurd here List.not_mem_nil
  | cons newest earlier induction =>
      rcases List.pairwise_cons.mp apart with ⟨front, rest⟩
      rcases List.mem_cons.mp here with rfl | earlierOne <;>
        rcases List.mem_cons.mp there with rfl | earlierOther
      · exact Or.inl rfl
      · exact Or.inr (Or.inr (front other earlierOther))
      · exact Or.inr (Or.inl (front one earlierOne))
      · exact induction rest earlierOne earlierOther

/-- A position is in at most one of the spans. -/
theorem Apart.unique (apart : Apart gap spans) {one other : Span}
    (here : one ∈ spans) (there : other ∈ spans) {place : Nat}
    (inOne : one.start ≤ place ∧ place < one.stop)
    (inOther : other.start ≤ place ∧ place < other.stop) : one = other := by
  induction spans with
  | nil => exact absurd here List.not_mem_nil
  | cons newest earlier induction =>
      rcases List.pairwise_cons.mp apart with ⟨front, rest⟩
      rcases List.mem_cons.mp here with rfl | earlierOne <;>
        rcases List.mem_cons.mp there with rfl | earlierOther
      · rfl
      · have between := front other earlierOther
        omega
      · have between := front one earlierOne
        omega
      · exact induction rest earlierOne earlierOther

end Runa.Packing.Spans
