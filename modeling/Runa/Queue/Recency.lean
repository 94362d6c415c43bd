import Mathlib.Data.List.Nodup
import Mathlib.Data.List.Pairwise

/-!
# Queues by recency

A queue of keys with the one that was asked for last at the back.  Requests
are kept with the newest first, so that of two keys the one found later in
them is the older one.
-/

namespace Runa.Queue.Recency

variable {α : Type} [DecidableEq α] {history queue : List α}

/-- Move a key to the back, or put it there. -/
def touch (key : α) (queue : List α) : List α :=
  queue.filter (fun other => other ≠ key) ++ [key]

/-- The last request for one key came before the last for the other. -/
def OlderThan (history : List α) (older newer : α) : Prop :=
  history.idxOf newer < history.idxOf older

/-- The oldest key is in front. -/
def ByAge (history queue : List α) : Prop :=
  queue.Pairwise (OlderThan history)

theorem ByAge.nodup (ordered : ByAge history queue) : queue.Nodup := by
  apply ordered.imp
  rintro older newer before rfl
  exact Nat.lt_irrefl _ before

@[simp]
theorem mem_touch {key other : α} :
    other ∈ touch key queue ↔ other = key ∨ other ∈ queue := by
  rw [touch, List.mem_append, List.mem_filter, List.mem_singleton,
    decide_eq_true_eq]
  constructor
  · rintro (⟨member, -⟩ | same)
    · exact Or.inr member
    · exact Or.inl same
  · rintro (same | member)
    · exact Or.inr same
    · by_cases same : other = key
      · exact Or.inr same
      · exact Or.inl ⟨member, same⟩

theorem olderThan_cons {key older newer : α}
    (apart : older ≠ key) (before : OlderThan history older newer) :
    OlderThan (key :: history) older newer := by
  unfold OlderThan at before ⊢
  rw [List.idxOf_cons_ne _ (Ne.symm apart)]
  by_cases same : newer = key
  · rw [same, List.idxOf_cons_self]
    exact Nat.succ_pos _
  · rw [List.idxOf_cons_ne _ (Ne.symm same)]
    exact Nat.succ_lt_succ before

/-- Nothing is younger than what was just asked for. -/
theorem olderThan_newest {key older : α} (apart : older ≠ key) :
    OlderThan (key :: history) older key := by
  unfold OlderThan
  rw [List.idxOf_cons_self, List.idxOf_cons_ne _ (Ne.symm apart)]
  exact Nat.succ_pos _

theorem ByAge.touch (ordered : ByAge history queue) (key : α) :
    ByAge (key :: history) (touch key queue) := by
  rw [ByAge, Recency.touch, List.pairwise_append]
  refine ⟨?_, List.pairwise_singleton _ _, ?_⟩
  · rw [List.pairwise_filter]
    apply ordered.imp
    intro older newer before kept _
    exact olderThan_cons (of_decide_eq_true kept) before
  · intro older member newer newest
    rw [List.mem_singleton] at newest
    subst newest
    rw [List.mem_filter, decide_eq_true_eq] at member
    exact olderThan_newest member.2

/-- A request for a key that is not there leaves the queue in order. -/
theorem ByAge.request (ordered : ByAge history queue) {key : α}
    (absent : key ∉ queue) : ByAge (key :: history) queue := by
  apply ordered.imp_of_mem
  intro older newer there _ before
  apply olderThan_cons _ before
  rintro rfl
  exact absent there

end Runa.Queue.Recency
