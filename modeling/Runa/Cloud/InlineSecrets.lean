import Runa.Nested.Documents
import Runa.Stream.Utf8

/-!
# Inline secrets

`reject_inline_secrets` of `runa-cloud/src/secrets.rs` on a configuration that
was parsed: a walk through its tables and arrays that stops at the first key
with the name of a secret.  A secret is found wherever there is one.  The path
that is reported can be followed to one unless the walk began with an empty
key: the path is empty behind it as at the root, and the dot that would tell
them apart is left out.
-/

namespace Runa.Cloud.InlineSecrets

open Runa.Nested.Documents
open Runa.Stream.Utf8 (Text)

/-! ## The walk -/

inductive SecretError where
  | invalidToml (origin message : Text)
  | inlineConfig (origin key : Text)
deriving DecidableEq

/-- `to_ascii_lowercase().replace('-', "_")` -/
def normalized (name : Text) : Text :=
  (name.map Char.toLower).map fun c => if c = '-' then '_' else c

def secretKeys : List Text :=
  ["api_key".toList, "apikey".toList, "openai_api_key".toList,
    "anthropic_api_key".toList, "openai_key".toList,
    "anthropic_key".toList, "secret_key".toList, "access_token".toList]

def isSecretKey (name : Text) : Bool :=
  secretKeys.contains (normalized name) ||
    "_api_key".toList.isSuffixOf (normalized name)

/-- `format!("{path}.{k}")`, or the key alone at an empty path -/
def keyPath (path k : Text) : Text :=
  if path.isEmpty then k else path ++ '.' :: k

/-- `format!("{path}[{i}]")` -/
def indexPath (path : Text) (i : Nat) : Text :=
  path ++ '[' :: (Nat.toDigits 10 i ++ [']'])

section

variable (origin : Text)

mutual

def walkValue (path : Text) : Value Text → Except SecretError Unit
  | .table entries => walkTable path entries
  | .array items => walkArray path 0 items
  | .leaf => .ok ()

/-- The loop over the entries of a table. -/
def walkTable (path : Text) :
    List (Text × Value Text) → Except SecretError Unit
  | [] => .ok ()
  | (k, v) :: rest => do
    if isSecretKey k then
      .error (.inlineConfig origin (keyPath path k))
    else
      walkValue (keyPath path k) v
      walkTable path rest

/-- The loop over the items of an array, from a position on. -/
def walkArray (path : Text) :
    Nat → List (Value Text) → Except SecretError Unit
  | _, [] => .ok ()
  | i, v :: rest => do
    walkValue (indexPath path i) v
    walkArray path (i + 1) rest

end

/-- Walk a `runa.toml` / `config.toml` and reject inline API-key fields. -/
def rejectInlineSecrets (fromStr : Text → Except Text (Value Text))
    (text : Text) : Except SecretError Unit :=
  match fromStr text with
  | .error message => .error (.invalidToml origin message)
  | .ok value => walkValue origin [] value

end

/-! ## Paths -/

/-- A step behind others. -/
def suffix : Step Text → Text
  | .key k => '.' :: k
  | .index i => indexPath [] i

/-- A route as a path: the keys with dots between them, and the positions in
brackets. -/
def pathText : List (Step Text) → Text
  | [] => []
  | .key k :: rest => k ++ rest.flatMap suffix
  | .index i :: rest => indexPath [] i ++ rest.flatMap suffix

/-- The path of the walk behind one step more. -/
def extend (path : Text) : Step Text → Text
  | .key k => keyPath path k
  | .index i => indexPath path i

/-- The path of the walk behind a route. -/
def shown (path : Text) (route : List (Step Text)) : Text :=
  route.foldl extend path

/-- The step that leaves an empty path empty. -/
def emptyKey : Step Text :=
  .key []

theorem extend_eq {path : Text} (some : path ≠ []) (step : Step Text) :
    extend path step = path ++ suffix step := by
  cases step with
  | key k =>
      rw [extend, keyPath, if_neg (by simpa using some)]
      rfl
  | index i => rfl

theorem shown_eq {path : Text} (some : path ≠ [])
    (route : List (Step Text)) :
    shown path route = path ++ route.flatMap suffix := by
  induction route generalizing path with
  | nil => exact (List.append_nil path).symm
  | cons step rest induction =>
      have more : path ++ suffix step ≠ [] :=
        List.append_ne_nil_of_left_ne_nil some _
      rw [List.flatMap_cons, ← List.append_assoc]
      change shown (extend path step) rest = _
      rw [extend_eq some]
      exact induction more

/-- From the root, the empty keys in front leave nothing in the path. -/
theorem shown_root (route : List (Step Text)) :
    shown [] route = pathText (route.dropWhile (· = emptyKey)) := by
  induction route with
  | nil => rfl
  | cons step rest induction =>
      cases step with
      | key k =>
          by_cases empty : k = []
          · subst empty
            exact induction
          · rw [List.dropWhile_cons_of_neg (by simpa [emptyKey] using empty)]
            exact shown_eq empty rest
      | index i =>
          rw [List.dropWhile_cons_of_neg (by simp [emptyKey])]
          exact shown_eq (List.cons_ne_nil _ _) rest

/-! ## What the walk reports -/

section

variable {origin path : Text}

/-- The first of some routes, reported. -/
def report (origin path : Text) :
    List (List (Step Text)) → Except SecretError Unit
  | [] => .ok ()
  | first :: _ => .error (.inlineConfig origin (shown path first))

theorem report_append (front back : List (List (Step Text))) :
    report origin path (front ++ back) = (do
      report origin path front
      report origin path back) := by
  cases front <;> rfl

theorem report_map (step : Step Text) (found : List (List (Step Text))) :
    report origin path (found.map (step :: ·)) =
      report origin (extend path step) found := by
  cases found <;> rfl

mutual

/-- The walk reports the first route to a key with the name of a secret. -/
theorem walkValue_eq (path : Text) (value : Value Text) :
    walkValue origin path value =
      report origin path (routes isSecretKey value) := by
  cases value with
  | table entries => exact walkTable_eq path entries
  | array items => exact walkArray_eq path 0 items
  | leaf => rfl

theorem walkTable_eq (path : Text) (entries : List (Text × Value Text)) :
    walkTable origin path entries =
      report origin path (tableRoutes isSecretKey entries) := by
  cases entries with
  | nil => rfl
  | cons entry rest =>
      rcases entry with ⟨k, v⟩
      rw [walkTable, tableRoutes, List.append_assoc, report_append,
        report_append, report_map, ← walkTable_eq path rest, extend,
        ← walkValue_eq (keyPath path k) v]
      cases isSecretKey k <;> rfl

theorem walkArray_eq (path : Text) (i : Nat) (items : List (Value Text)) :
    walkArray origin path i items =
      report origin path (arrayRoutes isSecretKey i items) := by
  cases items with
  | nil => rfl
  | cons v rest =>
      rw [walkArray, arrayRoutes, report_append, report_map,
        ← walkArray_eq path (i + 1) rest, extend,
        ← walkValue_eq (indexPath path i) v]

end

theorem report_eq_error_iff {found : List (List (Step Text))}
    {error : SecretError} :
    report origin path found = .error error ↔
      ∃ first, found.head? = some first ∧
        .inlineConfig origin (shown path first) = error := by
  cases found with
  | nil => simp [report]
  | cons first rest => simp [report]

end

/-! ## Where the path can be followed -/

/-- Secrets are found at any depth, and the path that is reported for one
leads to one. -/
structure Sound (outcome : Except SecretError Unit) (origin : Text)
    (value : Value Text) : Prop where
  found : (∃ key, outcome = .error (.inlineConfig origin key)) ↔
    ∃ entries, Inside (.table entries) value ∧
      ∃ entry ∈ entries, isSecretKey entry.1 = true
  path : ∀ key, outcome = .error (.inlineConfig origin key) →
    ∃ route, pathText route = key ∧ Leads isSecretKey value route

/-- The first secret is not below an empty key of the root, or there is one
too at the path that is left of its route without the empty keys in front. -/
def Traceable (value : Value Text) : Prop :=
  ∀ first, (routes isSecretKey value).head? = some first →
    first.head? ≠ some emptyKey ∨
      ∃ route ∈ routes isSecretKey value,
        pathText route = pathText (first.dropWhile (· = emptyKey))

section

variable {fromStr : Text → Except Text (Value Text)} {text origin : Text}
  {value : Value Text}

theorem reject_eq_error_iff (parsed : fromStr text = .ok value)
    {error : SecretError} :
    rejectInlineSecrets origin fromStr text = .error error ↔
      ∃ first, (routes isSecretKey value).head? = some first ∧
        .inlineConfig origin (pathText (first.dropWhile (· = emptyKey))) =
          error := by
  rw [rejectInlineSecrets, parsed]
  change walkValue origin [] value = _ ↔ _
  simp only [walkValue_eq, report_eq_error_iff, shown_root]

/-- Whatever the path, a secret is found where there is one. -/
theorem reject_found_iff (parsed : fromStr text = .ok value) :
    (∃ key, rejectInlineSecrets origin fromStr text =
        .error (.inlineConfig origin key)) ↔
      ∃ entries, Inside (.table entries) value ∧
        ∃ entry ∈ entries, isSecretKey entry.1 = true := by
  rw [← exists_leads_iff]
  simp only [reject_eq_error_iff parsed, ← mem_routes]
  constructor
  · rintro ⟨key, first, head, -⟩
    exact ⟨first, List.mem_of_head? head⟩
  · rintro ⟨route, member⟩
    cases found : routes isSecretKey value with
    | nil =>
        rw [found] at member
        cases member
    | cons first rest => exact ⟨_, first, rfl, rfl⟩

/--
Every secret is found.  The path that is reported leads to one exactly if the
first secret of the walk is not below an empty key of the root, or what is
left of its route leads to one all the same.
-/
theorem reject_sound_iff (parsed : fromStr text = .ok value) :
    Sound (rejectInlineSecrets origin fromStr text) origin value ↔
      Traceable value := by
  constructor
  · intro sound first head
    rcases sound.path _
        ((reject_eq_error_iff parsed).mpr ⟨first, head, rfl⟩) with
      ⟨route, same, leads⟩
    exact Or.inr ⟨route, (mem_routes value route).mpr leads, same⟩
  · intro traceable
    refine ⟨reject_found_iff parsed, ?_⟩
    intro key reported
    rcases (reject_eq_error_iff parsed).mp reported with ⟨first, head, same⟩
    cases same
    rcases traceable first head with noEmpty | ⟨route, member, same⟩
    · refine ⟨first, ?_, (mem_routes value first).mp
        (List.mem_of_head? head)⟩
      cases first with
      | nil => rfl
      | cons step rest =>
          have other : step ≠ emptyKey := fun equal =>
            noEmpty (congrArg some equal)
          rw [List.dropWhile_cons_of_neg (by simpa using other)]
    · exact ⟨route, same, (mem_routes value route).mp member⟩

end

/-! ## Two configurations -/

/-- A table with a key of a provider, under a name. -/
def keyUnder (name : Text) : Value Text :=
  .table [(name, .table [("api_key".toList, .leaf)])]

/-- `toml::from_str` on the texts of the two configurations. -/
def twoTables (text : Text) : Except Text (Value Text) :=
  if text = "[openai]\napi_key = \"sk-live\"\n".toList then
    .ok (keyUnder "openai".toList)
  else if text = "[\"\"]\napi_key = \"sk-live\"\n".toList then
    .ok (keyUnder [])
  else .error "another text".toList

theorem names_told :
    isSecretKey "api_key".toList = true ∧
      isSecretKey "openai".toList = false ∧ isSecretKey [] = false := by
  decide +kernel

theorem routes_keyUnder {name : Text} (other : isSecretKey name = false) :
    routes isSecretKey (keyUnder name) =
      [[.key name, .key "api_key".toList]] := by
  simp only [keyUnder, routes, tableRoutes, other, names_told.1, if_true,
    Bool.false_eq_true, if_false, List.map_cons, List.map_nil,
    List.append_nil, List.nil_append]

theorem reject_sound_openai :
    Sound
      (rejectInlineSecrets "cfg".toList twoTables
        "[openai]\napi_key = \"sk-live\"\n".toList)
      "cfg".toList (keyUnder "openai".toList) := by
  apply (reject_sound_iff (by exact if_pos rfl)).mpr
  intro first head
  rw [routes_keyUnder names_told.2.1] at head
  cases head
  exact Or.inl (by simp [emptyKey])

/-- The secret is at `"".api_key`, and `api_key` is reported. -/
theorem not_sound_empty_key :
    twoTables "[\"\"]\napi_key = \"sk-live\"\n".toList =
        .ok (keyUnder []) ∧
      rejectInlineSecrets "runa.toml".toList twoTables
          "[\"\"]\napi_key = \"sk-live\"\n".toList =
        .error (.inlineConfig "runa.toml".toList "api_key".toList) ∧
      ¬ Sound
        (rejectInlineSecrets "runa.toml".toList twoTables
          "[\"\"]\napi_key = \"sk-live\"\n".toList)
        "runa.toml".toList (keyUnder []) := by
  have parsed : twoTables "[\"\"]\napi_key = \"sk-live\"\n".toList =
      .ok (keyUnder []) :=
    (if_neg (by simp)).trans (if_pos rfl)
  have found := routes_keyUnder names_told.2.2
  have reported : rejectInlineSecrets "runa.toml".toList twoTables
      "[\"\"]\napi_key = \"sk-live\"\n".toList =
        .error (.inlineConfig "runa.toml".toList "api_key".toList) := by
    apply (reject_eq_error_iff parsed).mpr
    rw [found]
    exact ⟨_, rfl, rfl⟩
  refine ⟨parsed, reported, fun sound => ?_⟩
  rcases sound.path _ reported with ⟨route, same, leads⟩
  have member := (mem_routes _ _).mpr leads
  rw [found, List.mem_singleton] at member
  subst member
  exact absurd same (by simp [pathText, suffix])

end Runa.Cloud.InlineSecrets
