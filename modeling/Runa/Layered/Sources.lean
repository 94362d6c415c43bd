import Mathlib.Data.List.Basic
import Mathlib.Data.Option.Basic
import Runa.Store.Ordered

/-!
# Sources in layers

A setting may be made in several sources, of which a later one has the higher
precedence.  Reading a source can fail.  `readLast` reads them all and keeps
the last setting, `readFirst` stops at the first; where all can be read, they
give the last and the first.
-/

namespace Runa.Layered.Sources

open Runa.Store

variable {α ε τ : Type}

/-- The last setting that is made. -/
def lastSome : List (Option α) → Option α
  | [] => none
  | source :: later => (lastSome later).or source

/-- The first setting that is made. -/
def firstSome : List (Option α) → Option α
  | [] => none
  | source :: later => source.or (firstSome later)

/-- Read every source, and keep what was set last. -/
def readLast (read : τ → Except ε (Option α)) :
    Option α → List τ → Except ε (Option α)
  | found, [] => .ok found
  | found, source :: later =>
    match read source with
    | .error error => .error error
    | .ok none => readLast read found later
    | .ok (some value) => readLast read (some value) later

/-- Read sources until one makes the setting. -/
def readFirst (read : τ → Except ε (Option α)) :
    List τ → Except ε (Option α)
  | [] => .ok none
  | source :: later =>
    match read source with
    | .error error => .error error
    | .ok none => readFirst read later
    | .ok (some value) => .ok (some value)

theorem lastSome_append (front back : List (Option α)) :
    lastSome (front ++ back) = (lastSome back).or (lastSome front) := by
  induction front with
  | nil => exact (Option.or_none).symm
  | cons source front ih =>
      rw [List.cons_append, lastSome, ih, Option.or_assoc, lastSome]

/-- The last source comes before all others. -/
theorem lastSome_map_concat (made : τ → Option α) (sources : List τ)
    (last : τ) :
    lastSome ((sources ++ [last]).map made) =
      (made last).or (lastSome (sources.map made)) := by
  rw [List.map_append, lastSome_append, List.map_singleton, lastSome,
    lastSome, Option.none_or]

/-- What the last source sets is set by some source. -/
theorem mem_of_lastSome {list : List (Option α)} {value : α}
    (last : lastSome list = some value) : some value ∈ list := by
  induction list with
  | nil => cases last
  | cons first later ih =>
      rw [lastSome, Option.or_eq_some_iff] at last
      rcases last with there | ⟨-, rfl⟩
      · exact List.mem_cons_of_mem _ (ih there)
      · exact List.mem_cons_self

section

variable {read : τ → Except ε (Option α)} {made : τ → Option α}
  {sources : List τ}

theorem readLast_eq (reads : ∀ source ∈ sources,
      read source = .ok (made source)) (found : Option α) :
    readLast read found sources =
      .ok ((lastSome (sources.map made)).or found) := by
  induction sources generalizing found with
  | nil => rfl
  | cons source later ih =>
      obtain ⟨here, there⟩ := List.forall_mem_cons.mp reads
      rw [readLast, here, List.map_cons, lastSome]
      cases made source with
      | none =>
          rw [Option.or_none]
          exact ih there found
      | some value =>
          rw [Option.or_assoc, Option.some_or]
          exact ih there (some value)

theorem readFirst_eq (reads : ∀ source ∈ sources,
      read source = .ok (made source)) :
    readFirst read sources = .ok (firstSome (sources.map made)) := by
  induction sources with
  | nil => rfl
  | cons source later ih =>
      obtain ⟨here, there⟩ := List.forall_mem_cons.mp reads
      rw [readFirst, here, List.map_cons, firstSome]
      cases made source with
      | none =>
          rw [Option.none_or]
          exact ih there
      | some value => rw [Option.some_or]

end

/-- Sources that are merged one after the other, each of which sets a key or
leaves it: the last one counts. -/
theorem foldlM_merge {μ : Type} {merge : μ → τ → Except ε μ}
    {held : μ → Option α} {made : τ → Option α} {sources : List τ}
    (sets : ∀ map source next, source ∈ sources →
      merge map source = .ok next →
        held next = (made source).or (held map))
    {map final : μ} (merged : sources.foldlM merge map = .ok final) :
    held final = (lastSome (sources.map made)).or (held map) := by
  induction sources generalizing map with
  | nil =>
      cases merged
      rfl
  | cons source later ih =>
      rw [List.foldlM_cons] at merged
      cases first : merge map source with
      | error error =>
          rw [first] at merged
          cases merged
      | ok next =>
          rw [first] at merged
          have there := ih (fun map other next member =>
            sets map other next (List.mem_cons_of_mem _ member)) merged
          rw [there, sets map source next List.mem_cons_self first,
            List.map_cons, lastSome, Option.or_assoc]

section

variable {μ : Type} {merge : μ → τ → Except ε μ} {sources : List τ}

/-- Sources that can each be merged can be merged one after the other. -/
theorem foldlM_total (merges : ∀ source ∈ sources, ∀ map,
      ∃ next, merge map source = .ok next) (map : μ) :
    ∃ final, sources.foldlM merge map = .ok final := by
  induction sources generalizing map with
  | nil => exact ⟨map, rfl⟩
  | cons source later ih =>
      obtain ⟨here, there⟩ := List.forall_mem_cons.mp merges
      obtain ⟨next, first⟩ := here map
      rw [List.foldlM_cons, first]
      exact ih there next

/-- What every source keeps is kept. -/
theorem foldlM_keeps {Kept : μ → Prop}
    (keeps : ∀ map source next, merge map source = .ok next →
      Kept map → Kept next)
    {map final : μ} (merged : sources.foldlM merge map = .ok final)
    (kept : Kept map) : Kept final := by
  induction sources generalizing map with
  | nil =>
      cases merged
      exact kept
  | cons source later ih =>
      rw [List.foldlM_cons] at merged
      cases first : merge map source with
      | error error =>
          rw [first] at merged
          cases merged
      | ok next =>
          rw [first] at merged
          exact ih merged (keeps map source next first kept)

end

section

variable {κ ν : Type} [LinearOrder κ]

/-- What an entry of a map sets under a key. -/
def underKey (key : κ) (read : ν → Option α) (entry : κ × ν) : Option α :=
  if key = entry.1 then read entry.2 else none

/-- The entries of a map as sources of one key. -/
theorem lastSome_entries {entries : List (κ × ν)}
    (ascending : Ordered.Ascending entries) (key : κ)
    (read : ν → Option α) :
    lastSome (entries.map (underKey key read)) =
      (Ordered.find key entries).bind read := by
  induction entries with
  | nil => rfl
  | cons entry later ih =>
      rw [List.map_cons, lastSome, ih ascending.of_cons, Ordered.find,
        underKey]
      by_cases same : key = entry.1
      · rw [if_pos same, if_pos same, same, ascending.find_tail]
        rfl
      · rw [if_neg same, if_neg same, Option.or_none]

/-- An entry that is put sets its key. -/
theorem find_put {entry : κ × ν} {read : ν → Option α} {value : α}
    (sets : read entry.2 = some value) (map : List (κ × α)) (key : κ) :
    Ordered.find key (Ordered.put entry.1 value map) =
      (underKey key read entry).or (Ordered.find key map) := by
  rw [underKey]
  by_cases same : key = entry.1
  · rw [if_pos same, same, Ordered.find_put_self, sets, Option.some_or]
  · rw [if_neg same, Ordered.find_put_of_ne same, Option.none_or]

end

section

universe u v

variable {τ : Type u} {α : Type v} {first second : τ → List α}

/-- Two readings of every source come one behind the other where no source
with a second one is before a source with a first one. -/
theorem flatMap_append_eq_iff {sources : List τ}
    (apart : ∀ left right, ∀ value ∈ second left, value ∉ first right) :
    sources.flatMap (fun source => first source ++ second source) =
        sources.flatMap first ++ sources.flatMap second ↔
      sources.Pairwise fun earlier later =>
        second earlier = [] ∨ first later = [] := by
  induction sources with
  | nil => simp
  | cons source later induction =>
      rw [List.flatMap_cons, List.flatMap_cons, List.flatMap_cons,
        List.pairwise_cons, List.append_assoc, List.append_assoc,
        List.append_cancel_left_eq]
      by_cases silent : second source = []
      · simp only [silent, List.nil_append, true_or, implies_true, true_and]
        exact induction
      · by_cases alone : ∀ other ∈ later, first other = []
        · have both : later.flatMap (fun other => first other ++ second other) =
              later.flatMap second :=
            List.flatMap_congr fun other member => by
              rw [alone other member, List.nil_append]
          rw [List.flatMap_eq_nil_iff.mpr alone, both, List.nil_append]
          apply iff_of_true rfl
          constructor
          · exact fun other member => Or.inr (alone other member)
          · exact List.pairwise_iff_forall_sublist.mpr fun {earlier other} sub =>
              Or.inr (alone other (sub.subset (by simp)))
        · apply iff_of_false
          · intro same
            rcases List.exists_cons_of_ne_nil silent with ⟨value, rest, head⟩
            rcases List.exists_cons_of_ne_nil
              (mt List.flatMap_eq_nil_iff.mp alone) with ⟨other, back, front⟩
            rw [head, front, List.cons_append, List.cons_append,
              List.cons.injEq] at same
            have inside : value ∈ later.flatMap first := by
              rw [front, same.1]
              exact List.mem_cons_self
            rcases List.mem_flatMap.mp inside with ⟨right, -, member⟩
            refine apart source right value ?_ member
            rw [head]
            exact List.mem_cons_self
          · rintro ⟨head, -⟩
            exact alone fun other member =>
              (head other member).resolve_left silent

end

end Runa.Layered.Sources
