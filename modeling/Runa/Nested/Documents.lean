import Mathlib.Data.List.Basic

/-!
# Nested documents

Documents of tables and arrays, nested to any depth, and the routes through
them: a step goes into a table by a key or into an array by a position.  For
keys that are marked, `routes` lists the routes that lead to a marked key in
the order in which a walk from the root comes upon them, and `mem_routes` says
that it lists all of them and no others.
-/

namespace Runa.Nested.Documents

universe u

variable {κ : Type u}

/-- A document; what is neither a table nor an array is a leaf.  An entry of a
table is what is found under its key, as no key is there twice. -/
inductive Value (κ : Type u) where
  | table (entries : List (κ × Value κ))
  | array (items : List (Value κ))
  | leaf

inductive Step (κ : Type u) where
  | key (key : κ)
  | index (position : Nat)
deriving DecidableEq

/-! ## Depths and routes -/

/-- A document is another one, or stands in it at some depth. -/
inductive Inside (inner : Value κ) : Value κ → Prop where
  | here : Inside inner inner
  | entry {entries : List (κ × Value κ)} {key : κ} {value : Value κ} :
      (key, value) ∈ entries → Inside inner value →
        Inside inner (.table entries)
  | item {items : List (Value κ)} {value : Value κ} :
      value ∈ items → Inside inner value → Inside inner (.array items)

section

variable (marked : κ → Bool)

/-- A route leads to a marked key of a table. -/
inductive Leads : Value κ → List (Step κ) → Prop where
  | last {entries : List (κ × Value κ)} {key : κ} {value : Value κ} :
      (key, value) ∈ entries → marked key = true →
        Leads (.table entries) [.key key]
  | key {entries : List (κ × Value κ)} {key : κ} {value : Value κ}
      {route : List (Step κ)} :
      (key, value) ∈ entries → Leads value route →
        Leads (.table entries) (.key key :: route)
  | index {items : List (Value κ)} {position : Nat} {value : Value κ}
      {route : List (Step κ)} :
      items[position]? = some value → Leads value route →
        Leads (.array items) (.index position :: route)

mutual

/-- The routes to marked keys, in the order of a walk. -/
def routes : Value κ → List (List (Step κ))
  | .table entries => tableRoutes entries
  | .array items => arrayRoutes 0 items
  | .leaf => []

def tableRoutes : List (κ × Value κ) → List (List (Step κ))
  | [] => []
  | (key, value) :: rest =>
    (if marked key then [[.key key]] else []) ++
      (routes value).map (.key key :: ·) ++ tableRoutes rest

/-- The routes through the items from a position on. -/
def arrayRoutes : Nat → List (Value κ) → List (List (Step κ))
  | _, [] => []
  | position, value :: rest =>
    (routes value).map (.index position :: ·) ++
      arrayRoutes (position + 1) rest

end

end

section

variable {marked : κ → Bool}

/-- There is a route exactly to the tables at some depth that have a marked
key. -/
theorem exists_leads_iff {value : Value κ} :
    (∃ route, Leads marked value route) ↔
      ∃ entries, Inside (.table entries) value ∧
        ∃ entry ∈ entries, marked entry.1 = true := by
  constructor
  · rintro ⟨route, leads⟩
    induction leads with
    | last member accepted =>
        exact ⟨_, .here, _, member, accepted⟩
    | key member _ induction =>
        rcases induction with ⟨entries, inside, found⟩
        exact ⟨entries, .entry member inside, found⟩
    | index there _ induction =>
        rcases induction with ⟨entries, inside, found⟩
        exact ⟨entries, .item (List.mem_of_getElem? there) inside, found⟩
  · rintro ⟨entries, inside, entry, member, accepted⟩
    induction inside with
    | here => exact ⟨_, .last member accepted⟩
    | entry outer _ induction =>
        rcases induction with ⟨route, leads⟩
        exact ⟨_, .key outer leads⟩
    | item outer _ induction =>
        rcases induction with ⟨route, leads⟩
        rcases List.mem_iff_getElem?.mp outer with ⟨position, there⟩
        exact ⟨_, .index there leads⟩

mutual

theorem mem_routes (value : Value κ) (route : List (Step κ)) :
    route ∈ routes marked value ↔ Leads marked value route := by
  cases value with
  | table entries =>
      rw [routes, mem_tableRoutes entries route]
      constructor
      · rintro ⟨key, value, member, ⟨rfl, accepted⟩ | ⟨rest, rfl, leads⟩⟩
        · exact .last member accepted
        · exact .key member leads
      · intro leads
        cases leads with
        | last member accepted =>
            exact ⟨_, _, member, Or.inl ⟨rfl, accepted⟩⟩
        | key member leads =>
            exact ⟨_, _, member, Or.inr ⟨_, rfl, leads⟩⟩
  | array items =>
      rw [routes, mem_arrayRoutes 0 items route]
      constructor
      · rintro ⟨position, value, rest, there, rfl, leads⟩
        rw [Nat.zero_add]
        exact .index there leads
      · intro leads
        cases leads with
        | index there leads =>
            refine ⟨_, _, _, there, ?_, leads⟩
            rw [Nat.zero_add]
  | leaf =>
      rw [routes]
      constructor
      · exact nofun
      · exact nofun

theorem mem_tableRoutes (entries : List (κ × Value κ))
    (route : List (Step κ)) :
    route ∈ tableRoutes marked entries ↔
      ∃ key value, (key, value) ∈ entries ∧
        (route = [.key key] ∧ marked key = true ∨
          ∃ rest, route = .key key :: rest ∧ Leads marked value rest) := by
  cases entries with
  | nil => simp [tableRoutes]
  | cons entry rest =>
      rcases entry with ⟨key, value⟩
      have here : route ∈ (if marked key then [[.key key]] else []) ↔
          route = [.key key] ∧ marked key = true := by
        by_cases accepted : marked key = true
        · simp [accepted]
        · simp [accepted]
      rw [tableRoutes, List.mem_append, List.mem_append, here, List.mem_map,
        mem_tableRoutes rest route]
      constructor
      · rintro ((⟨rfl, accepted⟩ | ⟨inner, member, rfl⟩) |
          ⟨other, held, member, found⟩)
        · exact ⟨key, value, List.mem_cons_self, Or.inl ⟨rfl, accepted⟩⟩
        · exact ⟨key, value, List.mem_cons_self,
            Or.inr ⟨inner, rfl, (mem_routes value inner).mp member⟩⟩
        · exact ⟨other, held, List.mem_cons_of_mem _ member, found⟩
      · rintro ⟨other, held, member, found⟩
        rcases List.mem_cons.mp member with same | later
        · cases same
          rcases found with last | ⟨inner, rfl, leads⟩
          · exact Or.inl (Or.inl last)
          · exact Or.inl (Or.inr
              ⟨inner, (mem_routes value inner).mpr leads, rfl⟩)
        · exact Or.inr ⟨other, held, later, found⟩

theorem mem_arrayRoutes (first : Nat) (items : List (Value κ))
    (route : List (Step κ)) :
    route ∈ arrayRoutes marked first items ↔
      ∃ position value rest, items[position]? = some value ∧
        route = .index (first + position) :: rest ∧
          Leads marked value rest := by
  cases items with
  | nil => simp [arrayRoutes]
  | cons value rest =>
      rw [arrayRoutes, List.mem_append, List.mem_map,
        mem_arrayRoutes (first + 1) rest route]
      constructor
      · rintro (⟨inner, member, rfl⟩ | ⟨position, held, inner, there, rfl, leads⟩)
        · exact ⟨0, value, inner, rfl, rfl,
            (mem_routes value inner).mp member⟩
        · refine ⟨position + 1, held, inner, there, ?_, leads⟩
          rw [Nat.add_right_comm, Nat.add_assoc]
      · rintro ⟨position, held, inner, there, rfl, leads⟩
        cases position with
        | zero =>
            cases there
            exact Or.inl ⟨inner, (mem_routes _ inner).mpr leads, rfl⟩
        | succ position =>
            refine Or.inr ⟨position, held, inner, there, ?_, leads⟩
            rw [Nat.add_right_comm, Nat.add_assoc]

end

end

end Runa.Nested.Documents
