import Runa.App.Pool
import Runa.Bytes.Framing

/-!
# The ids of the models

The embedding of `model_specs_from_paths` of `runa/src/serve.rs`, which names
the models of the command line before a pool is built from them.  The first
path of a stem is known by the stem, the next ones by the stem with the
number of the paths before it.  Such an id can be the stem of another path,
and two paths can stand for one file; `reachable_iff` says that nothing else
keeps a model from being found under an id of its own, in the pool and in
every pool that `insert_spec` makes of it.
-/

namespace Runa.App.ModelSpecs

open Runa.App.Pool
open Runa.Bytes.Framing
open Runa.Stream.Utf8

/-! ## Naming the paths -/

section

variable (isFile : Path → Bool) (resolveModel : Path → Except Text Path)

/-- The file that a path of the command line stands for. -/
def locate (path : Path) : Except Text Path :=
  if isFile path then .ok path else resolveModel path

def stemOf (path : Path) : Text :=
  (fileStem path).getD "runa".toList

/-- The id of a path, by the number of the paths of its stem before it. -/
def specId (stem : Text) (n : Nat) : Text :=
  if n = 0 then stem else stem ++ '-' :: (toString n).toList

def specsFrom (counts : AList fun _ : Text => Nat) :
    List Path → Except Text (List (Text × Path))
  | [] => .ok []
  | path :: paths => do
      let resolved ← locate isFile resolveModel path
      let stem := stemOf resolved
      let n := (counts.lookup stem).getD 0
      let specs ← specsFrom (counts.insert stem (n + 1)) paths
      return (specId stem n, resolved) :: specs

def modelSpecsFromPaths (paths : List Path) :
    Except Text (List (Text × Path)) :=
  specsFrom isFile resolveModel ∅ paths

/-- The files of the paths that stand for one. -/
def located (paths : List Path) : List Path :=
  paths.filterMap fun path => (locate isFile resolveModel path).toOption

end

/-! ## What is asked of the pool -/

/-- The pool after some paths were inserted. -/
def insertAll (pool : ModelPool) (calls : List (Host × Path)) : ModelPool :=
  calls.foldl (fun pool call => (pool.insertSpec call.1 call.2).2) pool

/-- Every model of a pool is listed, and found under one id. -/
structure Findable (paths : List Path) (pool : ModelPool) : Prop where
  nodup : pool.order.Nodup
  listed : ∀ id, id ∈ pool.order ↔ id ∈ pool.specs
  named : ∀ path ∈ paths, ∃! id, pool.specs.lookup id = some path
  ends : ∀ host path, host.isModel path = true →
    (∀ id, pool.specs.lookup id ≠ some path) →
      ∃ n, (pool.insertSpec host path).1 = .ok (candidate (stemOf path) n) ∧
        candidate (stemOf path) n ∉ pool.specs ∧
          ∀ m < n, candidate (stemOf path) m ∈ pool.specs
  still : ∀ host path id old, pool.specs.lookup id = some old →
    (pool.insertSpec host path).2.specs.lookup id = some old
  again : ∀ host path id, (pool.insertSpec host path).1 = .ok id →
    ∀ calls host', host'.isModel path = true →
      ((insertAll (pool.insertSpec host path).2 calls).insertSpec host'
        path).1 = .ok id

/-- The paths that were inserted. -/
def inserted (calls : List (Host × Path)) : List Path :=
  (calls.filter fun call => call.1.isModel call.2).map Prod.snd

/-- Ids are distinct, and stay so whatever is inserted. -/
def Reachable (specs : List (Text × Path)) (pool : ModelPool) : Prop :=
  (specs.map Prod.fst).Nodup ∧
    ∀ calls, Findable (specs.map Prod.snd ++ inserted calls)
      (insertAll pool calls)

/-- No stem is what a repeated stem is numbered to. -/
def NoClash (stems : List Text) : Prop :=
  ∀ stem n, 0 < n → n < stems.count stem → specId stem n ∉ stems

/-! ## Distinct ids -/

section

variable {stem other : Text} {stems before : List Text} {m n : Nat}

/-- Every stem with the number of those before it. -/
def numbered (before : List Text) : List Text → List (Text × Nat)
  | [] => []
  | stem :: stems =>
      (stem, before.count stem) :: numbered (stem :: before) stems

theorem mem_numbered :
    (stem, n) ∈ numbered before stems ↔
      before.count stem ≤ n ∧ n < before.count stem + stems.count stem := by
  induction stems generalizing before with
  | nil =>
      simp only [numbered, List.not_mem_nil, List.count_nil, false_iff]
      omega
  | cons front stems induction =>
      rw [numbered, List.mem_cons, induction, Prod.mk.injEq]
      by_cases same : stem = front
      · subst same
        simp only [List.count_cons_self, true_and]
        omega
      · rw [List.count_cons_of_ne (Ne.symm same),
          List.count_cons_of_ne (Ne.symm same)]
        simp only [same, false_and, false_or]

theorem nodup_numbered (before stems : List Text) :
    (numbered before stems).Nodup := by
  induction stems generalizing before with
  | nil => exact List.nodup_nil
  | cons stem stems induction =>
      apply List.nodup_cons.mpr
      constructor
      · rw [mem_numbered, List.count_cons_self]
        omega
      · exact induction (stem :: before)

/-- A number has no dash. -/
theorem dash_notMem_toString (n : Nat) : '-' ∉ (toString n).toList := by
  intro member
  rw [Nat.toString_eq_repr, Nat.toList_repr] at member
  have digit := Nat.isDigit_of_mem_toDigits (by decide) (by decide) member
  revert digit
  decide

theorem specId_inj (positive : 0 < m) (positive' : 0 < n)
    (same : specId stem m = specId other n) : stem = other ∧ m = n := by
  rw [specId, if_neg positive.ne', specId, if_neg positive'.ne'] at same
  obtain ⟨stems, numbers⟩ := mark_append_inj (dash_notMem_toString m)
    (dash_notMem_toString n) same
  exact ⟨stems, toString_injective numbers⟩

theorem nodup_ids_iff :
    ((numbered [] stems).map fun pair => specId pair.1 pair.2).Nodup ↔
      NoClash stems := by
  rw [List.nodup_map_iff_inj_on (nodup_numbered [] stems)]
  constructor
  · intro injective stem n positive fewer member
    have first : (specId stem n, 0) ∈ numbered [] stems := by
      rw [mem_numbered, List.count_nil, Nat.zero_add]
      exact ⟨Nat.le_refl 0, List.count_pos_iff.mpr member⟩
    have later : (stem, n) ∈ numbered [] stems := by
      rw [mem_numbered, List.count_nil, Nat.zero_add]
      exact ⟨Nat.zero_le n, fewer⟩
    have same := injective _ first _ later rfl
    exact positive.ne (congrArg Prod.snd same)
  · rintro apart ⟨stem, m⟩ one ⟨other, n⟩ two same
    rw [mem_numbered, List.count_nil, Nat.zero_add] at one two
    dsimp only at same
    rcases Nat.eq_zero_or_pos m with rfl | numbered
    · rcases Nat.eq_zero_or_pos n with rfl | numbered'
      · exact Prod.ext same rfl
      · exfalso
        apply apart other n numbered' two.2
        rw [← same]
        exact List.count_pos_iff.mp one.2
    · rcases Nat.eq_zero_or_pos n with rfl | numbered'
      · exfalso
        apply apart stem m numbered one.2
        rw [same]
        exact List.count_pos_iff.mp two.2
      · obtain ⟨stems, numbers⟩ := specId_inj numbered numbered' same
        exact Prod.ext stems numbers

end

/-! ## The ids of the command line -/

section

variable {isFile : Path → Bool} {resolveModel : Path → Except Text Path}
  {paths : List Path} {specs : List (Text × Path)} {before : List Text}

/-- The counters stand at the stems so far. -/
theorem specsFrom_spec {counts : AList fun _ : Text => Nat}
    (counted : ∀ stem, (counts.lookup stem).getD 0 = before.count stem)
    (made : specsFrom isFile resolveModel counts paths = .ok specs) :
    specs.map Prod.snd = located isFile resolveModel paths ∧
      specs.map Prod.fst =
        (numbered before ((specs.map Prod.snd).map stemOf)).map
          fun pair => specId pair.1 pair.2 := by
  induction paths generalizing counts before specs with
  | nil =>
      cases made
      exact ⟨rfl, rfl⟩
  | cons path paths induction =>
      unfold specsFrom at made
      cases found : locate isFile resolveModel path with
      | error error =>
          rw [found] at made
          cases made
      | ok resolved =>
          simp only [found, Except.bind, bind] at made
          split at made
          · cases made
          · rename_i rest more
            cases made
            have counted' : ∀ stem,
                ((counts.insert (stemOf resolved)
                  ((counts.lookup (stemOf resolved)).getD 0 + 1)).lookup
                    stem).getD 0 =
                  (stemOf resolved :: before).count stem := by
              intro stem
              by_cases same : stem = stemOf resolved
              · rw [same, AList.lookup_insert, List.count_cons_self,
                  ← counted]
                rfl
              · rw [AList.lookup_insert_ne same,
                  List.count_cons_of_ne (Ne.symm same), counted]
            obtain ⟨files, ids⟩ := induction counted' more
            constructor
            · rw [List.map_cons, files, located, located,
                List.filterMap_cons, found]
              rfl
            · rw [List.map_cons, ids, counted]
              rfl

theorem modelSpecs_spec
    (made : modelSpecsFromPaths isFile resolveModel paths = .ok specs) :
    specs.map Prod.snd = located isFile resolveModel paths ∧
      ((specs.map Prod.fst).Nodup ↔
        NoClash ((located isFile resolveModel paths).map stemOf)) := by
  have counted : ∀ stem : Text,
      ((∅ : AList fun _ : Text => Nat).lookup stem).getD 0 =
        ([] : List Text).count stem :=
    fun _ => rfl
  obtain ⟨files, ids⟩ := specsFrom_spec counted made
  refine ⟨files, ?_⟩
  rw [ids, nodup_ids_iff, files]

end

/-! ## The pool of the command line -/

section

variable {host : Host} {specs : List (Text × Path)}
  {known known' : AList fun _ : Text => Path} {order order' : List Text}

/-- Distinct ids are registered as they are listed. -/
theorem registerModels_spec (distinct : (specs.map Prod.fst).Nodup)
    (new : ∀ id ∈ specs.map Prod.fst, id ∉ known)
    (registered : registerModels host specs (known, order) =
      .ok (known', order')) :
    order' = order ++ specs.map Prod.fst ∧
      ∀ id path, known'.lookup id = some path ↔
        known.lookup id = some path ∨ (id, path) ∈ specs := by
  induction specs generalizing known order with
  | nil =>
      cases registered
      simp
  | cons spec specs induction =>
      obtain ⟨id, path⟩ := spec
      unfold registerModels at registered
      split_ifs at registered with there
      rw [List.map_cons, List.nodup_cons] at distinct
      have new' : ∀ other ∈ specs.map Prod.fst,
          other ∉ known.insert id path := by
        intro other member
        rw [AList.mem_insert, not_or]
        constructor
        · rintro rfl
          exact distinct.1 member
        · exact new other (List.mem_cons_of_mem _ member)
      obtain ⟨listed, looked⟩ := induction distinct.2 new' registered
      constructor
      · rw [listed, List.append_assoc]
        rfl
      · intro other file
        rw [looked, List.mem_cons, Prod.mk.injEq]
        by_cases same : other = id
        · subst same
          have absent : known.lookup other = none :=
            AList.lookup_eq_none.mpr (new other List.mem_cons_self)
          rw [AList.lookup_insert, absent, Option.some.injEq]
          simp only [true_and, reduceCtorEq, false_or]
          rw [eq_comm]
        · rw [AList.lookup_insert_ne same]
          simp only [same, false_and, false_or]

end

/-- The invariant of a pool, with the paths that were registered. -/
structure Sound (paths : List Path) (pool : ModelPool) : Prop where
  nodup : pool.order.Nodup
  listed : ∀ id, id ∈ pool.order ↔ id ∈ pool.specs
  every : ∀ path ∈ paths, ∃ id, pool.specs.lookup id = some path
  unique : ∀ id other path, pool.specs.lookup id = some path →
    pool.specs.lookup other = some path → id = other

section

variable {host : Host} {path : Path} {paths : List Path} {pool : ModelPool}
  {specs : List (Text × Path)} {id : Text}

/-- A new id for a new path keeps ids and paths apart. -/
theorem Sound.inserts (sound : Sound paths pool)
    {result : Except Text Text × ModelPool}
    (step : Inserts pool host path result) :
    Sound (paths ++ inserted [(host, path)]) result.2 := by
  cases step with
  | missing absent =>
      simpa [inserted, absent] using sound
  | known there found =>
      constructor
      · exact sound.nodup
      · exact sound.listed
      · intro other member
        rcases List.mem_append.mp member with old | new
        · exact sound.every other old
        · obtain rfl : other = path := by simpa [inserted, there] using new
          exact ⟨_, found⟩
      · exact sound.unique
  | fresh there unknown named unused =>
      rename_i id
      constructor
      · apply sound.nodup.append (List.nodup_singleton id)
        intro other old new
        obtain rfl := List.mem_singleton.mp new
        exact unused ((sound.listed other).mp old)
      · intro other
        rw [List.mem_append, List.mem_singleton, AList.mem_insert,
          sound.listed, or_comm]
      · intro other member
        rcases List.mem_append.mp member with old | new
        · obtain ⟨place, found⟩ := sound.every other old
          refine ⟨place, (AList.lookup_insert_ne ?_).trans found⟩
          rintro rfl
          rw [AList.lookup_eq_none.mpr unused] at found
          cases found
        · obtain rfl : other = path := by simpa [inserted, there] using new
          exact ⟨id, AList.lookup_insert _⟩
      · intro one two file first second
        by_cases here : one = id
        · by_cases there : two = id
          · exact here.trans there.symm
          · rw [here, AList.lookup_insert] at first
            rw [AList.lookup_insert_ne there] at second
            cases first
            exact (unknown two second).elim
        · rw [AList.lookup_insert_ne here] at first
          by_cases there : two = id
          · rw [there, AList.lookup_insert] at second
            cases second
            exact (unknown one first).elim
          · rw [AList.lookup_insert_ne there] at second
            exact sound.unique one two file first second

theorem Sound.insertAll (sound : Sound paths pool)
    (calls : List (Host × Path)) :
    Sound (paths ++ inserted calls) (insertAll pool calls) := by
  induction calls generalizing paths pool with
  | nil => simpa [inserted, ModelSpecs.insertAll] using sound
  | cons call calls induction =>
      have later := induction (sound.inserts (pool.inserts call.1 call.2))
      have split : inserted (call :: calls) =
          inserted [call] ++ inserted calls := by
        rw [inserted, inserted, inserted, ← List.map_append,
          ← List.filter_append]
        rfl
      rw [split, ← List.append_assoc]
      exact later

theorem lookup_insertAll {old : Path}
    (found : pool.specs.lookup id = some old)
    (calls : List (Host × Path)) :
    (insertAll pool calls).specs.lookup id = some old := by
  induction calls generalizing pool with
  | nil => exact found
  | cons call calls induction =>
      exact induction (lookup_insertSpec pool call.1 call.2 found)

/-- A path that is known is found where it is. -/
theorem Sound.insertSpec_known (sound : Sound paths pool)
    (found : pool.specs.lookup id = some path)
    (there : host.isModel path = true) :
    (pool.insertSpec host path).1 = .ok id := by
  have step := pool.inserts host path
  generalize pool.insertSpec host path = result at step ⊢
  cases step with
  | missing absent =>
      rw [there] at absent
      cases absent
  | known there other =>
      exact congrArg Except.ok (sound.unique _ _ _ other found)
  | fresh there unknown named unused => exact (unknown id found).elim

theorem Sound.findable (sound : Sound paths pool) : Findable paths pool := by
  constructor
  · exact sound.nodup
  · exact sound.listed
  · intro path member
    obtain ⟨id, found⟩ := sound.every path member
    exact ⟨id, found, fun other same => sound.unique _ _ _ same found⟩
  · intro host path there unknown
    have step := pool.inserts host path
    generalize pool.insertSpec host path = result at step ⊢
    cases step with
    | missing absent =>
        rw [there] at absent
        cases absent
    | known there found => exact (unknown _ found).elim
    | fresh there unknown named unused =>
        obtain ⟨n, first, earlier⟩ :=
          freshId_first pool.specs (stemOf path)
        have place : candidate (stemOf path) n = _ := first.symm.trans named
        exact ⟨n, congrArg Except.ok place.symm, place ▸ unused, earlier⟩
  · intro host path id old found
    exact lookup_insertSpec pool host path found
  · intro host path id first calls host' there
    have found := lookup_insertAll (lookup_of_insertSpec first) calls
    exact ((sound.inserts (pool.inserts host path)).insertAll
      calls).insertSpec_known found there

theorem new_spec {backend : BackendKind} {loras : List Path}
    {maxLoaded : Nat} {idleTimeout : Option Nat}
    (distinct : (specs.map Prod.fst).Nodup)
    (built : ModelPool.new host specs backend loras maxLoaded idleTimeout =
      .ok pool) :
    pool.order = specs.map Prod.fst ∧
      ∀ id path, pool.specs.lookup id = some path ↔ (id, path) ∈ specs := by
  unfold ModelPool.new at built
  cases registered : registerModels host specs (∅, []) with
  | error error =>
      rw [registered] at built
      cases built
  | ok known =>
      rw [registered] at built
      cases built
      obtain ⟨listed, looked⟩ := registerModels_spec distinct
        (fun id _ member => AList.notMem_empty id member) registered
      refine ⟨listed, fun id path => (looked id path).trans ?_⟩
      rw [AList.lookup_empty]
      simp only [reduceCtorEq, false_or]

/-- With distinct ids, models are findable if their files are distinct. -/
theorem findable_iff (distinct : (specs.map Prod.fst).Nodup)
    (listed : pool.order = specs.map Prod.fst)
    (looked : ∀ id path,
      pool.specs.lookup id = some path ↔ (id, path) ∈ specs) :
    (∀ calls, Findable (specs.map Prod.snd ++ inserted calls)
        (insertAll pool calls)) ↔ (specs.map Prod.snd).Nodup := by
  constructor
  · intro findable
    apply List.Nodup.map_on _ (List.Nodup.of_map _ distinct)
    rintro ⟨id, path⟩ first ⟨other, file⟩ second same
    obtain rfl : path = file := same
    obtain ⟨place, -, only⟩ := (findable []).named path
      (List.mem_append_left _ (List.mem_map_of_mem first))
    rw [only id ((looked id path).mpr first),
      only other ((looked other path).mpr second)]
  · intro files calls
    apply Sound.findable
    apply Sound.insertAll
    constructor
    · rw [listed]
      exact distinct
    · intro id
      rw [listed, ← AList.lookup_isSome, Option.isSome_iff_exists,
        List.mem_map]
      constructor
      · rintro ⟨⟨place, path⟩, member, rfl⟩
        exact ⟨path, (looked _ _).mpr member⟩
      · rintro ⟨path, found⟩
        exact ⟨(id, path), (looked _ _).mp found, rfl⟩
    · intro path member
      obtain ⟨⟨id, file⟩, spec, rfl⟩ := List.mem_map.mp member
      exact ⟨id, (looked _ _).mpr spec⟩
    · intro id other path first second
      have same := List.inj_on_of_nodup_map files
        ((looked _ _).mp first) ((looked _ _).mp second) rfl
      exact congrArg Prod.fst same

end

/-- Every model stays reachable if and only if the paths stand for distinct
files and no stem is what a repeated stem is numbered to. -/
theorem reachable_iff (isFile : Path → Bool)
    (resolveModel : Path → Except Text Path) (paths : List Path)
    (host : Host) (backend : BackendKind) (loras : List Path)
    (maxLoaded : Nat) (idleTimeout : Option Nat)
    (specs : List (Text × Path)) (pool : ModelPool)
    (made : modelSpecsFromPaths isFile resolveModel paths = .ok specs)
    (built : ModelPool.new host specs backend loras maxLoaded idleTimeout =
      .ok pool) :
    Reachable specs pool ↔
      (located isFile resolveModel paths).Nodup ∧
        NoClash ((located isFile resolveModel paths).map stemOf) := by
  obtain ⟨files, ids⟩ := modelSpecs_spec made
  unfold Reachable
  rw [← ids, ← files]
  constructor
  · rintro ⟨distinct, findable⟩
    obtain ⟨listed, looked⟩ := new_spec distinct built
    exact ⟨(findable_iff distinct listed looked).mp findable, distinct⟩
  · rintro ⟨apart, distinct⟩
    obtain ⟨listed, looked⟩ := new_spec distinct built
    exact ⟨distinct, (findable_iff distinct listed looked).mpr apart⟩

def twoModels : List Path :=
  ["x/m.gguf".toList, "y/m.gguf".toList]

theorem reachable_two :
    ∃ specs pool,
      modelSpecsFromPaths (fun _ => true) .ok twoModels = .ok specs ∧
        ModelPool.new (easyHost 0 0) specs .auto [] 1 none = .ok pool ∧
          (Reachable specs pool ↔
            (located (fun _ => true) .ok twoModels).Nodup ∧
              NoClash
                ((located (fun _ => true) .ok twoModels).map stemOf)) :=
  ⟨_, _, rfl, rfl,
    reachable_iff (fun _ => true) .ok twoModels (easyHost 0 0) .auto [] 1
      none _ _ rfl rfl⟩

def threeModels : List Path :=
  ["x/m.gguf".toList, "y/m.gguf".toList, "z/m-1.gguf".toList]

/-- The second `m` is numbered to the id of the third model. -/
theorem unreachable_three :
    threeModels.Nodup ∧
      ∃ specs pool,
        modelSpecsFromPaths (fun _ => true) .ok threeModels = .ok specs ∧
          ModelPool.new (easyHost 0 0) specs .auto [] 1 none = .ok pool ∧
            ¬ Reachable specs pool := by
  refine ⟨by decide, _, _, rfl, rfl, ?_⟩
  rintro ⟨distinct, -⟩
  exact absurd distinct (by decide)

end Runa.App.ModelSpecs
