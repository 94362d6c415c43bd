import Mathlib.Data.List.Pairwise
import Mathlib.Data.Nat.Basic
import Mathlib.Order.Lattice

/-!
# Maps kept in key order

A map as the list of its entries with strictly increasing keys, so that two
maps are equal exactly if they hold the same value under every key.
-/

namespace Runa.Store.Ordered

variable {κ ν : Type} [LinearOrder κ]

/-- The value under a key. -/
def find (key : κ) : List (κ × ν) → Option ν
  | [] => none
  | (other, value) :: rest =>
    if key = other then some value else find key rest

/-- Put a value under a key, in place of the one that was there. -/
def put (key : κ) (value : ν) : List (κ × ν) → List (κ × ν)
  | [] => [(key, value)]
  | (other, held) :: rest =>
    if key < other then (key, value) :: (other, held) :: rest
    else if key = other then (key, value) :: rest
    else (other, held) :: put key value rest

theorem find_nil (key : κ) : find key ([] : List (κ × ν)) = none :=
  rfl

theorem find_cons (key other : κ) (value : ν) (rest : List (κ × ν)) :
    find key ((other, value) :: rest) =
      if key = other then some value else find key rest :=
  rfl

theorem put_nil (key : κ) (value : ν) : put key value [] = [(key, value)] :=
  rfl

theorem put_cons (key other : κ) (value held : ν) (rest : List (κ × ν)) :
    put key value ((other, held) :: rest) =
      if key < other then (key, value) :: (other, held) :: rest
      else if key = other then (key, value) :: rest
      else (other, held) :: put key value rest :=
  rfl

/-- Keys strictly increase. -/
def Ascending (entries : List (κ × ν)) : Prop :=
  entries.Pairwise (fun one other => one.1 < other.1)

@[simp]
theorem find_put_self (key : κ) (value : ν) (entries : List (κ × ν)) :
    find key (put key value entries) = some value := by
  induction entries with
  | nil => simp [put_nil, find_cons]
  | cons entry rest ih =>
      rcases entry with ⟨other, held⟩
      by_cases less : key < other
      · simp [put_cons, find_cons, less]
      · by_cases same : key = other
        · subst same
          simp [put_cons, find_cons]
        · simp [put_cons, find_cons, less, same, ih]

theorem find_put_of_ne {key asked : κ} (apart : asked ≠ key)
    (value : ν) (entries : List (κ × ν)) :
    find asked (put key value entries) = find asked entries := by
  induction entries with
  | nil => simp [put_nil, find_cons, find_nil, apart]
  | cons entry rest ih =>
      rcases entry with ⟨other, held⟩
      by_cases less : key < other
      · simp [put_cons, find_cons, less, apart]
      · by_cases same : key = other
        · subst same
          simp [put_cons, find_cons, apart]
        · simp [put_cons, find_cons, less, same, ih]

@[simp]
theorem put_put (key : κ) (old new : ν) (entries : List (κ × ν)) :
    put key new (put key old entries) = put key new entries := by
  induction entries with
  | nil => simp [put_nil, put_cons]
  | cons entry rest ih =>
      rcases entry with ⟨other, held⟩
      by_cases less : key < other
      · simp [put_cons, less]
      · by_cases same : key = other
        · subst same
          simp [put_cons]
        · simp [put_cons, less, same, ih]

theorem mem_put {key : κ} {value : ν} {entries : List (κ × ν)}
    {entry : κ × ν} (member : entry ∈ put key value entries) :
    entry = (key, value) ∨ entry ∈ entries := by
  induction entries with
  | nil => exact Or.inl (List.mem_singleton.mp member)
  | cons first rest ih =>
      rcases first with ⟨other, held⟩
      rw [put_cons] at member
      split at member
      · exact List.mem_cons.mp member
      · split at member
        · rcases List.mem_cons.mp member with new | old
          · exact Or.inl new
          · exact Or.inr (List.mem_cons_of_mem _ old)
        · rcases List.mem_cons.mp member with first | old
          · exact Or.inr (List.mem_cons.mpr (Or.inl first))
          · rcases ih old with new | kept
            · exact Or.inl new
            · exact Or.inr (List.mem_cons_of_mem _ kept)

theorem Ascending.put {entries : List (κ × ν)}
    (ascending : Ascending entries) (key : κ) (value : ν) :
    Ascending (put key value entries) := by
  induction entries with
  | nil => exact List.pairwise_singleton _ _
  | cons first rest ih =>
      rcases first with ⟨other, held⟩
      obtain ⟨above, tail⟩ := List.pairwise_cons.mp ascending
      rw [put_cons]
      split
      · next less =>
          apply List.pairwise_cons.mpr
          constructor
          · intro entry member
            rcases List.mem_cons.mp member with rfl | later
            · exact less
            · exact lt_trans less (above entry later)
          · exact ascending
      · next notLess =>
          split
          · next same =>
              subst same
              exact List.pairwise_cons.mpr ⟨above, tail⟩
          · next apart =>
              apply List.pairwise_cons.mpr
              constructor
              · intro entry member
                rcases mem_put member with rfl | old
                · exact lt_of_le_of_ne (not_lt.mp notLess)
                    (Ne.symm apart)
                · exact above entry old
              · exact ih tail

/-- A map without a key. -/
def remove (key : κ) (entries : List (κ × ν)) : List (κ × ν) :=
  entries.filter fun entry => entry.1 ≠ key

theorem find_remove_of_ne {key asked : κ} (apart : asked ≠ key)
    (entries : List (κ × ν)) :
    find asked (remove key entries) = find asked entries := by
  induction entries with
  | nil => rfl
  | cons entry rest ih =>
      rcases entry with ⟨other, held⟩
      by_cases same : other = key
      · subst same
        simpa [remove, find_cons, apart] using ih
      · by_cases found : asked = other
        · simp [remove, find_cons, same, found]
        · simpa [remove, find_cons, same, found] using ih

theorem find_eq_none {key : κ} {entries : List (κ × ν)}
    (apart : ∀ entry ∈ entries, key ≠ entry.1) :
    find key entries = none := by
  induction entries with
  | nil => rfl
  | cons first rest ih =>
      rw [find_cons, if_neg (apart first List.mem_cons_self)]
      exact ih fun entry member =>
        apart entry (List.mem_cons_of_mem _ member)

@[simp]
theorem find_remove_self (key : κ) (entries : List (κ × ν)) :
    find key (remove key entries) = none := by
  apply find_eq_none
  intro entry member
  rw [remove, List.mem_filter, decide_eq_true_eq] at member
  exact Ne.symm member.2

/-- A value under a key is in the list. -/
theorem mem_of_find {key : κ} {value : ν} {entries : List (κ × ν)}
    (found : find key entries = some value) : (key, value) ∈ entries := by
  induction entries with
  | nil => cases found
  | cons entry rest ih =>
      rcases entry with ⟨other, held⟩
      rw [find_cons] at found
      split at found
      · next same =>
          cases found
          subst same
          exact List.mem_cons_self
      · exact List.mem_cons_of_mem _ (ih found)

theorem Ascending.find_tail {first : κ × ν} {rest : List (κ × ν)}
    (ascending : Ascending (first :: rest)) :
    find first.1 rest = none :=
  find_eq_none fun entry member =>
    ne_of_lt ((List.pairwise_cons.mp ascending).1 entry member)

theorem Ascending.find_below {first : κ × ν} {rest : List (κ × ν)}
    (ascending : Ascending (first :: rest)) {key : κ}
    (less : key < first.1) :
    find key (first :: rest) = none := by
  apply find_eq_none
  intro entry member
  rcases List.mem_cons.mp member with rfl | later
  · exact ne_of_lt less
  · exact ne_of_lt (lt_trans less
      ((List.pairwise_cons.mp ascending).1 entry later))

/-- Maps that hold the same are the same. -/
theorem Ascending.ext {one other : List (κ × ν)}
    (oneAscends : Ascending one) (otherAscends : Ascending other)
    (alike : ∀ key, find key one = find key other) : one = other := by
  induction one generalizing other with
  | nil =>
      cases other with
      | nil => rfl
      | cons first rest =>
          rcases first with ⟨key, value⟩
          have here := alike key
          simp [find_cons, find_nil] at here
  | cons first rest ih =>
      cases other with
      | nil =>
          rcases first with ⟨key, value⟩
          have here := alike key
          simp [find_cons, find_nil] at here
      | cons second others =>
          rcases first with ⟨key, value⟩
          rcases second with ⟨key', value'⟩
          -- The smaller of the two first keys is in one map only.
          have same : key = key' := by
            rcases lt_trichotomy key key' with less | same | less
            · have here := alike key
              rw [otherAscends.find_below less] at here
              simp [find_cons] at here
            · exact same
            · have here := alike key'
              rw [oneAscends.find_below less] at here
              simp [find_cons] at here
          subst same
          have value_eq : value = value' := by
            simpa [find_cons] using alike key
          subst value_eq
          congr 1
          apply ih oneAscends.of_cons otherAscends.of_cons
          intro asked
          by_cases first : asked = key
          · subst first
            rw [oneAscends.find_tail, otherAscends.find_tail]
          · simpa [find_cons, first] using alike asked

/-- A key above all others is put at the end. -/
theorem put_above {key : κ} {entries : List (κ × ν)}
    (above : ∀ entry ∈ entries, entry.1 < key) (value : ν) :
    put key value entries = entries ++ [(key, value)] := by
  induction entries with
  | nil => rfl
  | cons first rest ih =>
      rcases first with ⟨other, held⟩
      have less : other < key := above (other, held) List.mem_cons_self
      rw [put_cons, if_neg (lt_asymm less), if_neg (ne_of_gt less),
        ih fun entry member =>
          above entry (List.mem_cons_of_mem _ member)]
      rfl

theorem find_last {key : κ} {entries : List (κ × ν)}
    (above : ∀ entry ∈ entries, entry.1 < key) (value : ν) :
    find key (entries ++ [(key, value)]) = some value := by
  rw [← put_above above, find_put_self]

theorem put_last {key : κ} {entries : List (κ × ν)}
    (above : ∀ entry ∈ entries, entry.1 < key) (old new : ν) :
    put key new (entries ++ [(key, old)]) = entries ++ [(key, new)] := by
  rw [← put_above above, put_put, put_above above]

/-- Entries in key order are put behind what is there. -/
theorem puts_ascending {before entries : List (κ × ν)}
    (ascending : Ascending (before ++ entries)) :
    entries.foldl (fun map entry => put entry.1 entry.2 map) before =
      before ++ entries := by
  induction entries generalizing before with
  | nil => rw [List.foldl_nil, List.append_nil]
  | cons entry later ih =>
      have above : ∀ other ∈ before, other.1 < entry.1 :=
        fun other member =>
          (List.pairwise_append.mp ascending).2.2 other member entry
            List.mem_cons_self
      rw [List.append_cons] at ascending
      rw [List.foldl_cons, put_above above, ih ascending,
        List.append_assoc, List.singleton_append]

/-- The entries of a list under its positions, from a number on. -/
def enumerate (first : Nat) : List ν → List (Nat × ν)
  | [] => []
  | value :: later => (first, value) :: enumerate (first + 1) later

theorem mem_enumerate {first : Nat} {list : List ν} {entry : Nat × ν}
    (member : entry ∈ enumerate first list) : first ≤ entry.1 := by
  induction list generalizing first with
  | nil => cases member
  | cons value later ih =>
      rcases List.mem_cons.mp member with rfl | old
      · exact Nat.le_refl _
      · exact Nat.le_of_succ_le (ih old)

theorem enumerate_ascending (first : Nat) (list : List ν) :
    Ascending (enumerate first list) := by
  induction list generalizing first with
  | nil => exact List.Pairwise.nil
  | cons value later ih =>
      exact List.pairwise_cons.mpr
        ⟨fun _ member => mem_enumerate member, ih _⟩

theorem find_enumerate (first offset : Nat) (list : List ν) :
    find (first + offset) (enumerate first list) = list[offset]? := by
  induction list generalizing first offset with
  | nil => rfl
  | cons value later ih =>
      cases offset with
      | zero => simp [enumerate, find_cons]
      | succ offset =>
          rw [enumerate, find_cons, if_neg (by omega), Nat.add_succ,
            ← Nat.succ_add, ih, List.getElem?_cons_succ]

theorem map_snd_enumerate (first : Nat) (list : List ν) :
    (enumerate first list).map Prod.snd = list := by
  induction list generalizing first with
  | nil => rfl
  | cons value later ih => rw [enumerate, List.map_cons, ih]

/-- A map whose keys are positions has its values in their order. -/
theorem Ascending.values {map : List (Nat × ν)} (ascending : Ascending map)
    {list : List ν} (found : ∀ position, find position map = list[position]?) :
    map.map Prod.snd = list := by
  have same : map = enumerate 0 list := by
    apply ascending.ext (enumerate_ascending 0 list)
    intro position
    rw [found, ← find_enumerate 0 position, Nat.zero_add]
  rw [same, map_snd_enumerate]

/-- Steps that each change one entry change it in their own order only,
however they are mixed. -/
theorem find_foldl {σ : Type} {key : σ → κ}
    {own : Option ν → σ → Option ν}
    {change : List (κ × ν) → σ → List (κ × ν)}
    (here : ∀ map step,
      find (key step) (change map step) = own (find (key step) map) step)
    (there : ∀ map step asked, asked ≠ key step →
      find asked (change map step) = find asked map)
    (steps : List σ) (map : List (κ × ν)) (asked : κ) :
    find asked (steps.foldl change map) =
      (steps.filter fun step => key step = asked).foldl own
        (find asked map) := by
  induction steps generalizing map with
  | nil => rfl
  | cons step later ih =>
      rw [List.foldl_cons, ih]
      by_cases same : key step = asked
      · subst same
        rw [List.filter_cons_of_pos (by simp), List.foldl_cons, here]
      · rw [List.filter_cons_of_neg (by simpa using same),
          there _ _ _ (Ne.symm same)]

end Runa.Store.Ordered
