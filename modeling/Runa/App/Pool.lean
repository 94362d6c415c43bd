import Runa.Engine.Placements
import Runa.Queue.Recency
import Mathlib.Data.List.AList

/-!
# The model pool

The embedding of `ModelPool` of `runa/src/pool.rs`: the engines that are
loaded, the queue by which they are evicted, and the times at which they were
last used.  What the pool asks of the machine it runs on (whether a path is
there, which backend it takes, whether it fits, where its tensors go, whether
its thread starts, what time it is) is a parameter of every call; a thread
may stop between any two calls.
-/

namespace Runa.App.Pool

open Runa.Stream.Utf8
open Runa.Engine.Placements
open Runa.Queue.Recency

/-- A path, written with one separator between its components, so that
equal paths are equal texts. -/
abbrev Path := Text

/-- Which local engine loads the model. -/
inductive BackendKind where
  | auto
  | gguf
  | mistral
deriving DecidableEq, Repr

/-- The sending end of an engine, by the thread behind it. -/
abbrev Thread := Nat

/-- What a call finds around the pool. -/
structure Host where
  isModel : Path → Bool
  resolveRequested : BackendKind → Path → Except Text BackendKind
  fitCheckNoFit : Path → Except Text Unit
  placementFor : Path → Except Text Placement
  spawnEngine : Path → BackendKind → Placement → Except Text Thread
  now : Nat

structure ModelPool where
  specs : AList fun _ : Text => Path
  order : List Text
  engines : AList fun _ : Text => Thread
  lru : List Text
  maxLoaded : Nat
  backend : BackendKind
  loras : List Path
  lastUsed : AList fun _ : Text => Nat
  /-- no value for a timeout that disables the sweep -/
  idleTimeout : Option Nat

/-! ## Registering models -/

def noSuchModel (path : Path) : Text :=
  "no such model file or directory: ".toList ++ path

/-- Register the models of the command line. -/
def registerModels (host : Host) :
    List (Text × Path) → (AList fun _ : Text => Path) × List Text →
      Except Text ((AList fun _ : Text => Path) × List Text)
  | [], known => .ok known
  | (id, path) :: rest, (specs, order) =>
      if host.isModel path then
        registerModels host rest (specs.insert id path, order ++ [id])
      else .error (noSuchModel path)

def ModelPool.new
    (host : Host) (models : List (Text × Path)) (backend : BackendKind)
    (loras : List Path) (maxLoaded : Nat) (idleTimeout : Option Nat) :
    Except Text ModelPool := do
  let (specs, order) ← registerModels host models (∅, [])
  return {
    specs := specs
    order := order
    engines := ∅
    lru := []
    maxLoaded := max maxLoaded 1
    backend := backend
    loras := loras
    lastUsed := ∅
    idleTimeout := idleTimeout }

/-- The last component of a path, up to its last dot. -/
def fileStem (path : Path) : Option Text :=
  let parts :=
    (path.splitOn '/').filter fun part => part ≠ [] ∧ part ≠ ['.']
  match parts.getLast? with
  | none => none
  | some name =>
      if name = "..".toList then none
      else
        let front := (name.reverse.dropWhile (· ≠ '.')).drop 1
        if front = [] then some name else some front.reverse

/-- The stem itself, then the stem with a number behind it. -/
def candidate (stem : Text) : Nat → Text
  | 0 => stem
  | n + 1 => stem ++ '-' :: (toString (n + 2)).toList

/-- The first of the candidates that is not an id yet. -/
def freshId (specs : AList fun _ : Text => Path) (stem : Text) : Text :=
  (((List.range (specs.keys.length + 1)).map (candidate stem)).find?
    fun id => id ∉ specs).getD stem

theorem toString_injective {m n : Nat}
    (same : (toString m).toList = (toString n).toList) : m = n := by
  simp only [Nat.toString_eq_repr, Nat.toList_repr] at same
  rw [← @Nat.ofDigitChars_ten_toDigits m, same,
    Nat.ofDigitChars_ten_toDigits]

theorem candidate_injective (stem : Text) :
    Function.Injective (candidate stem) := by
  intro m n same
  cases m with
  | zero =>
      cases n with
      | zero => rfl
      | succ n =>
          have longer := congrArg List.length same
          simp [candidate] at longer
  | succ m =>
      cases n with
      | zero =>
          have longer := congrArg List.length same
          simp [candidate] at longer
      | succ n =>
          have numbers := List.append_cancel_left same
          rw [List.cons.injEq] at numbers
          have same := toString_injective numbers.2
          omega

/-- There are more candidates than ids, so the search ends with a new one. -/
theorem freshId_notMem (specs : AList fun _ : Text => Path) (stem : Text) :
    freshId specs stem ∉ specs := by
  unfold freshId
  cases found :
      ((List.range (specs.keys.length + 1)).map (candidate stem)).find?
        fun id => decide (id ∉ specs) with
  | some id =>
      have fresh := List.find?_some found
      exact of_decide_eq_true fresh
  | none =>
      exfalso
      have taken :
          (List.range (specs.keys.length + 1)).map (candidate stem) ⊆
            specs.keys := by
        intro id member
        have known := List.find?_eq_none.mp found id member
        rw [← AList.mem_keys]
        simpa using known
      have unique :
          ((List.range (specs.keys.length + 1)).map
            (candidate stem)).Nodup :=
        List.nodup_range.map (candidate_injective stem)
      have length := (List.subperm_of_subset unique taken).length_le
      rw [List.length_map, List.length_range] at length
      omega

/-- Register one more model under the stem of its path. -/
def ModelPool.insertSpec
    (pool : ModelPool) (host : Host) (path : Path) :
    Except Text Text × ModelPool :=
  if host.isModel path then
    match pool.specs.entries.find? fun entry => entry.2 = path with
    | some entry => (.ok entry.1, pool)
    | none =>
        let id := freshId pool.specs ((fileStem path).getD "runa".toList)
        (.ok id,
          { pool with
            specs := pool.specs.insert id path
            order := pool.order ++ [id] })
  else (.error (noSuchModel path), pool)

/-- The search ends at the first candidate that is not an id yet. -/
theorem freshId_first (specs : AList fun _ : Text => Path) (stem : Text) :
    ∃ n, freshId specs stem = candidate stem n ∧
      ∀ m < n, candidate stem m ∈ specs := by
  unfold freshId
  rw [List.find?_map]
  cases found : (List.range (specs.keys.length + 1)).find?
      ((fun id => decide (id ∉ specs)) ∘ candidate stem) with
  | some n =>
      refine ⟨n, rfl, ?_⟩
      intro m earlier
      have tried := (List.find?_range_eq_some.mp found).2.2 m earlier
      simpa using tried
  | none => exact ⟨0, rfl, fun m earlier => absurd earlier m.not_lt_zero⟩

/-- What registering a path does: it fails, finds the path, or adds it. -/
inductive Inserts (pool : ModelPool) (host : Host) (path : Path) :
    Except Text Text × ModelPool → Prop where
  | missing (absent : host.isModel path = false) :
      Inserts pool host path (.error (noSuchModel path), pool)
  | known (there : host.isModel path = true) {id : Text}
      (found : pool.specs.lookup id = some path) :
      Inserts pool host path (.ok id, pool)
  | fresh (there : host.isModel path = true)
      (unknown : ∀ id, pool.specs.lookup id ≠ some path) {id : Text}
      (named : freshId pool.specs ((fileStem path).getD "runa".toList) = id)
      (unused : id ∉ pool.specs) :
      Inserts pool host path
        (.ok id,
          { pool with
            specs := pool.specs.insert id path
            order := pool.order ++ [id] })

theorem ModelPool.inserts (pool : ModelPool) (host : Host) (path : Path) :
    Inserts pool host path (pool.insertSpec host path) := by
  unfold ModelPool.insertSpec
  split_ifs with there
  · cases found : pool.specs.entries.find? fun entry => entry.2 = path with
    | some entry =>
        have same := List.find?_some found
        rw [decide_eq_true_eq] at same
        apply Inserts.known there
        rw [← same]
        exact AList.mem_lookup_iff.mpr (List.mem_of_find?_eq_some found)
    | none =>
        apply Inserts.fresh there _ rfl (freshId_notMem _ _)
        intro id known
        have passed := List.find?_eq_none.mp found ⟨id, path⟩
          (AList.mem_lookup_iff.mp known)
        exact passed (decide_eq_true rfl)
  · rw [Bool.not_eq_true] at there
    exact Inserts.missing there

/-- A registered path does not move the others. -/
theorem lookup_insertSpec (pool : ModelPool) (host : Host) (path : Path)
    {id : Text} {old : Path} (known : pool.specs.lookup id = some old) :
    (pool.insertSpec host path).2.specs.lookup id = some old := by
  have step := pool.inserts host path
  generalize pool.insertSpec host path = result at step ⊢
  cases step with
  | missing absent => exact known
  | known there found => exact known
  | fresh there unknown named unused =>
      rw [← known]
      apply AList.lookup_insert_ne
      rintro rfl
      rw [AList.lookup_eq_none.mpr unused] at known
      cases known

/-- A registered path is found under its id. -/
theorem lookup_of_insertSpec {pool : ModelPool} {host : Host}
    {path : Path} {id : Text}
    (inserted : (pool.insertSpec host path).1 = .ok id) :
    (pool.insertSpec host path).2.specs.lookup id = some path := by
  have step := pool.inserts host path
  generalize pool.insertSpec host path = result at step inserted ⊢
  cases step with
  | missing absent => cases inserted
  | known there found =>
      cases inserted
      exact found
  | fresh there unknown named unused =>
      cases inserted
      exact AList.lookup_insert _

/-! ## Loading and evicting -/

def ModelPool.touchLru
    (pool : ModelPool) (id : Text) (now : Nat) : ModelPool :=
  { pool with
    lru := touch id pool.lru
    lastUsed := pool.lastUsed.insert id now }

/-- Evict from the front of the queue, as long as it names an engine. -/
def ModelPool.evictFrom (pool : ModelPool) : List Text → ModelPool
  | [] => { pool with lru := [] }
  | id :: rest =>
      if pool.maxLoaded < pool.engines.keys.length ∧ id ∈ pool.engines then
        ModelPool.evictFrom
          { pool with
            engines := pool.engines.erase id
            lastUsed := pool.lastUsed.erase id }
          rest
      else { pool with lru := id :: rest }

def ModelPool.evictIfNeeded (pool : ModelPool) : ModelPool :=
  pool.evictFrom pool.lru

/-- The checks before a model is loaded, and the start of its thread. -/
def ModelPool.load
    (pool : ModelPool) (host : Host) (id : Text) : Except Text Thread := do
  let path ←
    match pool.specs.lookup id with
    | some path => .ok path
    | none => .error ("model ".toList ++ id ++ " not found".toList)
  let kind ← host.resolveRequested pool.backend path
  match kind with
  | .gguf =>
      host.fitCheckNoFit path
      let placement ← host.placementFor path
      host.spawnEngine path .gguf placement
  | .mistral =>
      if pool.loras ≠ [] then
        .error "--lora needs the gguf backend".toList
      else host.spawnEngine path .mistral .cpu
  | .auto => .error "internal error: backend was not resolved".toList

def ModelPool.ensureEngine
    (pool : ModelPool) (host : Host) (id : Text) :
    Except Text Thread × ModelPool :=
  match pool.engines.lookup id with
  | some thread => (.ok thread, pool.touchLru id host.now)
  | none =>
      match pool.load host id with
      | .error error => (.error error, pool)
      | .ok thread =>
          (.ok thread,
            ({ pool with
                engines := pool.engines.insert id thread }.touchLru id
              host.now).evictIfNeeded)

/-! ## The idle sweep -/

/-- Ids whose engines have seen no request for the timeout. -/
def ModelPool.dueForIdle (pool : ModelPool) (now : Nat) : List Text :=
  match pool.idleTimeout with
  | none => []
  | some timeout =>
      pool.engines.keys.filter fun id =>
        match pool.lastUsed.lookup id with
        | none => true
        | some used => timeout ≤ now - used

/-- Wake one engine, or forget it if its thread has stopped. -/
def ModelPool.sweepOne
    (stopped : List Thread) (now : Nat)
    (state : ModelPool × List Text) (id : Text) :
    ModelPool × List Text :=
  match state.1.engines.lookup id with
  | none => state
  | some thread =>
      if thread ∈ stopped then
        ({ state.1 with
            engines := state.1.engines.erase id
            lastUsed := state.1.lastUsed.erase id },
          state.2)
      else
        ({ state.1 with lastUsed := state.1.lastUsed.insert id now },
          state.2 ++ [id])

def ModelPool.idleSweep
    (pool : ModelPool) (stopped : List Thread) (now : Nat) :
    ModelPool × List Text :=
  (pool.dueForIdle now).foldl (sweepOne stopped now) (pool, [])

/-! ## Runs -/

/-- The pool among its threads, some of which have stopped. -/
structure Service where
  pool : ModelPool
  stopped : List Thread

inductive Call where
  | ensureEngine (host : Host) (id : Text)
  | insertSpec (host : Host) (path : Path)
  | idleSweep (now : Nat)
  | stop (thread : Thread)

def Service.after (service : Service) : Call → Service
  | .ensureEngine host id =>
      { service with pool := (service.pool.ensureEngine host id).2 }
  | .insertSpec host path =>
      { service with pool := (service.pool.insertSpec host path).2 }
  | .idleSweep now =>
      { service with
        pool := (service.pool.idleSweep service.stopped now).1 }
  | .stop thread =>
      { service with stopped := thread :: service.stopped }

/-- The requests so far, the newest first. -/
def Call.noted (history : List Text) : Call → List Text
  | .ensureEngine _ id => id :: history
  | _ => history

/-- The three containers agree. -/
structure InStep (pool : ModelPool) : Prop where
  nodup : pool.lru.Nodup
  listed : ∀ id, id ∈ pool.lru ↔ id ∈ pool.engines
  used : ∀ id, id ∈ pool.lastUsed → id ∈ pool.engines

/-- What a call for an engine has to do. -/
structure Ensured
    (history : List Text) (before : ModelPool) (id : Text)
    (result : Except Text Thread) (after : ModelPool) : Prop where
  capped : after.engines.keys.length ≤ before.maxLoaded
  requested :
    ∀ thread, result = .ok thread → after.engines.lookup id = some thread
  evicted :
    ∀ gone ∈ before.engines, gone ∉ after.engines →
      ∀ other, other = id ∨ other ∈ before.engines →
        other ≠ gone → OlderThan history gone other
  failed :
    ∀ error, result = .error error →
      after.engines = before.engines ∧ after.lru = before.lru ∧
        after.lastUsed = before.lastUsed

/-- What holds after a call, with the requests up to it. -/
def CallKeeps (history : List Text) (service : Service) (call : Call) :
    Prop :=
  InStep (service.after call).pool ∧
    match call with
    | .ensureEngine host id =>
        Ensured (call.noted history) service.pool id
          (service.pool.ensureEngine host id).1 (service.after call).pool
    | _ => True

/-- What holds after every call of a run. -/
def RunKeeps : List Text → Service → List Call → Prop
  | _, _, [] => True
  | history, service, call :: calls =>
      CallKeeps history service call ∧
        RunKeeps (call.noted history) (service.after call) calls

/-- A sweep finds the threads of all engines it wakes alive. -/
def FindsAlive (service : Service) : Call → Prop
  | .idleSweep now =>
      ∀ id ∈ service.pool.dueForIdle now, ∀ thread,
        service.pool.engines.lookup id = some thread →
          thread ∉ service.stopped
  | _ => True

/-- Every sweep of a run does. -/
def RunFindsAlive : Service → List Call → Prop
  | _, [] => True
  | service, call :: calls =>
      FindsAlive service call ∧ RunFindsAlive (service.after call) calls

/-! ## The invariant -/

/-- The containers agree, and the queue is one by recency. -/
structure Kept (history : List Text) (pool : ModelPool) : Prop where
  listed : ∀ id, id ∈ pool.lru ↔ id ∈ pool.engines
  used : ∀ id, id ∈ pool.lastUsed → id ∈ pool.engines
  byAge : ByAge history pool.lru
  capped : pool.engines.keys.length ≤ pool.maxLoaded
  room : 0 < pool.maxLoaded

variable {history : List Text} {pool : ModelPool} {host : Host}
variable {id : Text} {thread : Thread}

theorem Kept.inStep (kept : Kept history pool) : InStep pool :=
  ⟨kept.byAge.nodup, kept.listed, kept.used⟩

theorem kept_new
    {models : List (Text × Path)} {backend : BackendKind}
    {loras : List Path} {maxLoaded : Nat} {idleTimeout : Option Nat}
    (made :
      ModelPool.new host models backend loras maxLoaded idleTimeout =
        .ok pool) :
    Kept [] pool := by
  unfold ModelPool.new at made
  cases registered : registerModels host models (∅, []) with
  | error error =>
      rw [registered] at made
      cases made
  | ok known =>
      rw [registered] at made
      cases made
      exact
        { listed := fun id => by simp
          used := fun id member => by simp at member
          byAge := List.Pairwise.nil
          capped := Nat.zero_le _
          room := Nat.lt_of_lt_of_le Nat.one_pos (Nat.le_max_right _ _) }

/-! ## Evictions -/

theorem length_keys_erase
    {α : Type} [DecidableEq α] {β : α → Type} {map : AList β} {key : α}
    (member : key ∈ map) :
    (map.erase key).keys.length + 1 = map.keys.length := by
  have some := List.length_pos_of_mem (AList.mem_keys.mp member)
  rw [AList.keys_erase,
    List.length_erase_of_mem (AList.mem_keys.mp member)]
  omega

theorem length_keys_insert
    {α : Type} [DecidableEq α] {β : α → Type} {map : AList β} {key : α}
    (absent : key ∉ map) (value : β key) :
    (map.insert key value).keys.length = map.keys.length + 1 := by
  rw [AList.keys_insert, List.erase_of_not_mem absent, List.length_cons]

/-- Nothing is evicted from a pool within its cap. -/
theorem evictFrom_of_fits
    (fits : pool.engines.keys.length ≤ pool.maxLoaded)
    (queue : List Text) :
    pool.evictFrom queue = { pool with lru := queue } := by
  cases queue with
  | nil => rfl
  | cons id rest =>
      rw [ModelPool.evictFrom, if_neg]
      rintro ⟨many, -⟩
      omega

/-- One engine too many, and the front of the queue goes. -/
theorem evictFrom_of_over
    (many : pool.engines.keys.length = pool.maxLoaded + 1)
    (loaded : id ∈ pool.engines) (rest : List Text) :
    pool.evictFrom (id :: rest) =
      { pool with
        engines := pool.engines.erase id
        lastUsed := pool.lastUsed.erase id
        lru := rest } := by
  have fewer :
      (pool.engines.erase id).keys.length ≤ pool.maxLoaded := by
    have count := length_keys_erase loaded
    omega
  rw [ModelPool.evictFrom, if_pos ⟨by omega, loaded⟩,
    evictFrom_of_fits fewer]

/-- The pool right after a model was put into it. -/
def ModelPool.loaded
    (pool : ModelPool) (id : Text) (thread now : Nat) : ModelPool :=
  { pool with engines := pool.engines.insert id thread }.touchLru id now

theorem Kept.loaded_listed (kept : Kept history pool) (now : Nat)
    (other : Text) :
    other ∈ (pool.loaded id thread now).lru ↔
      other ∈ (pool.loaded id thread now).engines := by
  show other ∈ touch id pool.lru ↔ other ∈ pool.engines.insert id thread
  rw [mem_touch, AList.mem_insert, kept.listed]

theorem Kept.loaded_used (kept : Kept history pool) (now : Nat)
    {other : Text} (member : other ∈ (pool.loaded id thread now).lastUsed) :
    other ∈ (pool.loaded id thread now).engines := by
  change other ∈ pool.lastUsed.insert id now at member
  show other ∈ pool.engines.insert id thread
  rw [AList.mem_insert] at member ⊢
  rcases member with same | member
  · exact Or.inl same
  · exact Or.inr (kept.used other member)

/-- What loading a model does: it finds room, or the oldest engine goes. -/
inductive Loads (pool : ModelPool) (id : Text) (thread now : Nat) :
    ModelPool → Prop where
  | fits (fits : pool.engines.keys.length < pool.maxLoaded) :
      Loads pool id thread now (pool.loaded id thread now)
  | evicts (full : pool.engines.keys.length = pool.maxLoaded)
      {front : Text} {rest : List Text}
      (queue : touch id pool.lru = front :: rest) (apart : front ≠ id) :
      Loads pool id thread now
        { pool.loaded id thread now with
          engines := (pool.engines.insert id thread).erase front
          lastUsed := (pool.lastUsed.insert id now).erase front
          lru := rest }

/-- A full pool has an engine besides the one that was just loaded. -/
theorem Kept.front
    (kept : Kept history pool) (absent : id ∉ pool.engines)
    (full : pool.engines.keys.length = pool.maxLoaded) :
    ∃ front rest, touch id pool.lru = front :: rest ∧ front ≠ id := by
  have room := kept.room
  rw [← full] at room
  obtain ⟨some, loaded⟩ := List.exists_mem_of_length_pos room
  have queued := (kept.listed some).mpr (AList.mem_keys.mpr loaded)
  cases queue : pool.lru with
  | nil =>
      rw [queue] at queued
      cases queued
  | cons front rest =>
      have apart : front ≠ id := by
        rintro rfl
        apply absent
        rw [← kept.listed, queue]
        exact List.mem_cons_self
      refine ⟨front, touch id rest, ?_, apart⟩
      simp [touch, apart]

theorem Kept.loads (kept : Kept history pool)
    (absent : id ∉ pool.engines) (now : Nat) :
    Loads pool id thread now
      (pool.loaded id thread now).evictIfNeeded := by
  have count := length_keys_insert absent thread
  have capped := kept.capped
  rcases Nat.lt_or_eq_of_le capped with fits | full
  · have within :
        (pool.loaded id thread now).engines.keys.length ≤
          (pool.loaded id thread now).maxLoaded := by
      show (pool.engines.insert id thread).keys.length ≤ pool.maxLoaded
      omega
    rw [ModelPool.evictIfNeeded, evictFrom_of_fits within]
    exact .fits fits
  · obtain ⟨front, rest, queue, apart⟩ := kept.front absent full
    have many :
        (pool.loaded id thread now).engines.keys.length =
          (pool.loaded id thread now).maxLoaded + 1 := by
      show (pool.engines.insert id thread).keys.length =
        pool.maxLoaded + 1
      omega
    have loaded : front ∈ (pool.loaded id thread now).engines := by
      rw [← kept.loaded_listed]
      show front ∈ touch id pool.lru
      rw [queue]
      exact List.mem_cons_self
    have view : (pool.loaded id thread now).lru = front :: rest := queue
    rw [ModelPool.evictIfNeeded, view, evictFrom_of_over many loaded]
    exact .evicts full queue apart

/-- Loading keeps the invariant. -/
theorem Kept.after_loads
    (kept : Kept history pool) (absent : id ∉ pool.engines) {now : Nat}
    {next : ModelPool} (loads : Loads pool id thread now next) :
    Kept (id :: history) next := by
  have count := length_keys_insert absent thread
  have ordered := kept.byAge.touch id
  cases loads with
  | fits fits =>
      exact
        { listed := kept.loaded_listed now
          used := fun other member => kept.loaded_used now member
          byAge := ordered
          capped := by
            show (pool.engines.insert id thread).keys.length ≤
              pool.maxLoaded
            omega
          room := kept.room }
  | @evicts full front rest queue apart =>
      have listed : ∀ other,
          other ∈ front :: rest ↔ other ∈ pool.engines.insert id thread := by
        intro other
        rw [← queue]
        exact kept.loaded_listed now other
      have loaded := (listed front).mp List.mem_cons_self
      have fewer := length_keys_erase loaded
      rw [queue] at ordered
      have unique := List.nodup_cons.mp ordered.nodup
      exact
        { listed := by
            intro other
            show other ∈ rest ↔
              other ∈ (pool.engines.insert id thread).erase front
            rw [AList.mem_erase, ← listed, List.mem_cons]
            constructor
            · intro member
              refine ⟨?_, Or.inr member⟩
              rintro rfl
              exact unique.1 member
            · rintro ⟨other, same | member⟩
              · exact (other same).elim
              · exact member
          used := by
            intro other member
            change other ∈ (pool.lastUsed.insert id now).erase front
              at member
            show other ∈ (pool.engines.insert id thread).erase front
            rw [AList.mem_erase] at member ⊢
            exact ⟨member.1, kept.loaded_used now member.2⟩
          byAge := (List.pairwise_cons.mp ordered).2
          capped := by
            show ((pool.engines.insert id thread).erase
              front).keys.length ≤ pool.maxLoaded
            omega
          room := kept.room }

/-- Loading is what a call for an engine may do. -/
theorem Kept.ensured_of_loads
    (kept : Kept history pool) (absent : id ∉ pool.engines) {now : Nat}
    {next : ModelPool} (loads : Loads pool id thread now next) :
    Ensured (id :: history) pool id (.ok thread) next := by
  have capped := (kept.after_loads absent loads).capped
  cases loads with
  | fits fits =>
      refine
        { capped := capped
          requested := ?_
          evicted := ?_
          failed := fun error failed => by cases failed }
      · rintro other ⟨⟩
        exact AList.lookup_insert _
      · intro gone member away
        apply absurd _ away
        exact (AList.mem_insert _).mpr (Or.inr member)
  | @evicts full front rest queue apart =>
      have ordered := kept.byAge.touch id
      rw [queue, ByAge, List.pairwise_cons] at ordered
      refine
        { capped := capped
          requested := ?_
          evicted := ?_
          failed := fun error failed => by cases failed }
      · rintro other ⟨⟩
        show ((pool.engines.insert id thread).erase front).lookup id = _
        rw [AList.lookup_erase_ne (Ne.symm apart), AList.lookup_insert]
      · intro gone member away other loaded different
        change gone ∉ (pool.engines.insert id thread).erase front at away
        have same : gone = front := by
          by_contra stays
          exact away
            (AList.mem_erase.mpr
              ⟨stays, (AList.mem_insert _).mpr (Or.inr member)⟩)
        subst same
        apply ordered.1
        have queued : other ∈ touch id pool.lru := by
          rw [mem_touch, kept.listed]
          exact loaded
        rw [queue, List.mem_cons] at queued
        exact queued.resolve_left different

/-- Asking for an engine that is loaded. -/
theorem Kept.touchLru
    (kept : Kept history pool) (loaded : id ∈ pool.engines) (now : Nat) :
    Kept (id :: history) (pool.touchLru id now) where
  listed := by
    intro other
    show other ∈ touch id pool.lru ↔ other ∈ pool.engines
    rw [mem_touch, kept.listed]
    constructor
    · rintro (rfl | member)
      · exact loaded
      · exact member
    · exact Or.inr
  used := by
    intro other member
    change other ∈ pool.lastUsed.insert id now at member
    rcases (AList.mem_insert _).mp member with rfl | member
    · exact loaded
    · exact kept.used other member
  byAge := kept.byAge.touch id
  capped := kept.capped
  room := kept.room

/-- A call that fails leaves the pool, and the queue in order. -/
theorem Kept.request (kept : Kept history pool)
    (absent : id ∉ pool.engines) : Kept (id :: history) pool where
  listed := kept.listed
  used := kept.used
  byAge := kept.byAge.request (mt (kept.listed id).mp absent)
  capped := kept.capped
  room := kept.room

theorem Kept.ensureEngine (kept : Kept history pool) (host : Host)
    (id : Text) :
    Kept (id :: history) (pool.ensureEngine host id).2 ∧
      Ensured (id :: history) pool id (pool.ensureEngine host id).1
        (pool.ensureEngine host id).2 := by
  unfold ModelPool.ensureEngine
  cases known : pool.engines.lookup id with
  | some thread =>
      have loaded : id ∈ pool.engines := by
        rw [← AList.lookup_isSome, known]
        rfl
      refine ⟨kept.touchLru loaded host.now, ?_⟩
      exact
        { capped := kept.capped
          requested := by
            rintro other ⟨⟩
            exact known
          evicted := fun gone member away => (away member).elim
          failed := fun error failed => by cases failed }
  | none =>
      have absent := AList.lookup_eq_none.mp known
      cases pool.load host id with
      | error error =>
          refine ⟨kept.request absent, ?_⟩
          exact
            { capped := kept.capped
              requested := fun thread failed => by cases failed
              evicted := fun gone member away => (away member).elim
              failed := fun _ _ => ⟨rfl, rfl, rfl⟩ }
      | ok thread =>
          have loads :=
            @Kept.loads history pool id thread kept absent host.now
          exact
            ⟨kept.after_loads absent loads,
              kept.ensured_of_loads absent loads⟩

/-! ## Sweeps -/

section Sweeps

variable {stopped : List Thread} {now : Nat}

/-- What a sweep leaves alone when it finds every thread alive. -/
structure Swept (before after : ModelPool) : Prop where
  engines : after.engines = before.engines
  lru : after.lru = before.lru
  maxLoaded : after.maxLoaded = before.maxLoaded
  used :
    ∀ id, id ∈ after.lastUsed → id ∈ before.lastUsed ∨ id ∈ before.engines

theorem swept_of_alive (due : List Text) (state : ModelPool × List Text)
    (alive :
      ∀ id ∈ due, ∀ thread, state.1.engines.lookup id = some thread →
        thread ∉ stopped) :
    Swept state.1
      (due.foldl (ModelPool.sweepOne stopped now) state).1 := by
  induction due generalizing state with
  | nil => exact ⟨rfl, rfl, rfl, fun id => Or.inl⟩
  | cons id due induction =>
      rw [List.foldl_cons]
      cases known : state.1.engines.lookup id with
      | none =>
          have step : ModelPool.sweepOne stopped now state id = state := by
            rw [ModelPool.sweepOne, known]
          rw [step]
          exact induction state
            fun other member => alive other (List.mem_cons_of_mem _ member)
      | some thread =>
          have lives := alive id List.mem_cons_self thread known
          have step :
              ModelPool.sweepOne stopped now state id =
                ({ state.1 with
                    lastUsed := state.1.lastUsed.insert id now },
                  state.2 ++ [id]) := by
            simp only [ModelPool.sweepOne, known, lives, if_false]
          rw [step]
          obtain ⟨engines, lru, maxLoaded, used⟩ :=
            induction
              ({ state.1 with
                  lastUsed := state.1.lastUsed.insert id now },
                state.2 ++ [id])
              fun other member =>
                alive other (List.mem_cons_of_mem _ member)
          refine ⟨engines, lru, maxLoaded, ?_⟩
          intro other member
          rcases used other member with member | member
          · rcases (AList.mem_insert _).mp member with rfl | member
            · right
              rw [← AList.lookup_isSome, known]
              rfl
            · exact Or.inl member
          · exact Or.inr member

/-- A sweep never loads an engine, and leaves the queue as it is. -/
theorem sweep_shrinks (due : List Text) (state : ModelPool × List Text) :
    (∀ id, state.1.engines.lookup id = none →
        (due.foldl (ModelPool.sweepOne stopped now)
          state).1.engines.lookup id = none) ∧
      (due.foldl (ModelPool.sweepOne stopped now) state).1.lru =
        state.1.lru := by
  induction due generalizing state with
  | nil => exact ⟨fun id absent => absent, rfl⟩
  | cons next due induction =>
      obtain ⟨shrinks, queue⟩ :=
        induction (ModelPool.sweepOne stopped now state next)
      rw [List.foldl_cons, queue]
      have step :
          (∀ id, state.1.engines.lookup id = none →
              (ModelPool.sweepOne stopped now state
                next).1.engines.lookup id = none) ∧
            (ModelPool.sweepOne stopped now state next).1.lru =
              state.1.lru := by
        unfold ModelPool.sweepOne
        split
        · exact ⟨fun id absent => absent, rfl⟩
        · split_ifs
          · refine ⟨fun id absent => ?_, rfl⟩
            rw [AList.lookup_eq_none] at absent ⊢
            rw [AList.mem_erase]
            exact fun member => absent member.2
          · exact ⟨fun id absent => absent, rfl⟩
      exact ⟨fun id absent => shrinks id (step.1 id absent), step.2⟩

/-- An engine whose thread has stopped is forgotten by the sweep. -/
theorem sweep_forgets (due : List Text) (state : ModelPool × List Text)
    (member : id ∈ due)
    (known : state.1.engines.lookup id = some thread)
    (dead : thread ∈ stopped) :
    (due.foldl (ModelPool.sweepOne stopped now) state).1.engines.lookup
        id = none := by
  induction due generalizing state with
  | nil => cases member
  | cons next due induction =>
      rw [List.foldl_cons]
      by_cases same : next = id
      · subst same
        apply (sweep_shrinks due _).1
        simp only [ModelPool.sweepOne, known, dead, if_true]
        exact AList.lookup_erase _ _
      · apply induction
        · exact (List.mem_cons.mp member).resolve_left (Ne.symm same)
        · unfold ModelPool.sweepOne
          split
          · exact known
          · split_ifs
            · show (state.1.engines.erase next).lookup id = _
              rw [AList.lookup_erase_ne (Ne.symm same), known]
            · exact known

end Sweeps

theorem Kept.idleSweep (kept : Kept history pool)
    {stopped : List Thread} {now : Nat}
    (alive : FindsAlive ⟨pool, stopped⟩ (.idleSweep now)) :
    Kept history (pool.idleSweep stopped now).1 := by
  have swept : Swept pool (pool.idleSweep stopped now).1 :=
    swept_of_alive (pool.dueForIdle now) (pool, []) alive
  exact
    { listed := by
        intro id
        rw [swept.lru, swept.engines]
        exact kept.listed id
      used := by
        intro id member
        rw [swept.engines]
        rcases swept.used id member with member | member
        · exact kept.used id member
        · exact member
      byAge := by
        rw [swept.lru]
        exact kept.byAge
      capped := by
        rw [swept.engines, swept.maxLoaded]
        exact kept.capped
      room := by
        rw [swept.maxLoaded]
        exact kept.room }

theorem Kept.insertSpec (kept : Kept history pool) (path : Path) :
    Kept history (pool.insertSpec host path).2 := by
  unfold ModelPool.insertSpec
  split_ifs with there
  · split
    · exact kept
    · exact
        ⟨kept.listed, kept.used, kept.byAge, kept.capped, kept.room⟩
  · exact kept

/-! ## Every run -/

variable {service : Service}

/-- A call keeps the invariant if its sweep finds every thread alive. -/
theorem Kept.after (kept : Kept history service.pool) {call : Call}
    (alive : FindsAlive service call) :
    Kept (call.noted history) (service.after call).pool := by
  cases call with
  | ensureEngine host id => exact (kept.ensureEngine host id).1
  | insertSpec host path => exact kept.insertSpec path
  | idleSweep now => exact kept.idleSweep alive
  | stop thread => exact kept

/-- A call does what it has to exactly if its sweep forgets nothing. -/
theorem callKeeps_iff (kept : Kept history service.pool) (call : Call) :
    CallKeeps history service call ↔ FindsAlive service call := by
  constructor
  · rintro ⟨inStep, -⟩
    cases call with
    | idleSweep now =>
        intro id due thread known dead
        -- the queue still names the engine that the sweep forgot
        have forgotten :
            ((service.pool.idleSweep service.stopped
              now).1.engines.lookup id) = none :=
          sweep_forgets (service.pool.dueForIdle now) (service.pool, [])
            due known dead
        have queue :
            (service.pool.idleSweep service.stopped now).1.lru =
              service.pool.lru :=
          (sweep_shrinks (service.pool.dueForIdle now)
            (service.pool, [])).2
        have loaded : id ∈ service.pool.engines := by
          rw [← AList.lookup_isSome, known]
          rfl
        apply AList.lookup_eq_none.mp forgotten
        apply (inStep.listed id).mp
        show id ∈ (service.pool.idleSweep service.stopped now).1.lru
        rw [queue]
        exact (kept.listed id).mpr loaded
    | ensureEngine host id => trivial
    | insertSpec host path => trivial
    | stop thread => trivial
  · intro alive
    refine ⟨(kept.after alive).inStep, ?_⟩
    cases call with
    | ensureEngine host id => exact (kept.ensureEngine host id).2
    | insertSpec host path => trivial
    | idleSweep now => trivial
    | stop thread => trivial

/-- The same, call after call. -/
theorem runKeeps_iff (kept : Kept history service.pool)
    (calls : List Call) :
    RunKeeps history service calls ↔ RunFindsAlive service calls := by
  induction calls generalizing history service with
  | nil => exact Iff.rfl
  | cons call calls induction =>
      rw [RunKeeps, RunFindsAlive, callKeeps_iff kept call]
      apply and_congr_right
      intro alive
      exact induction (kept.after alive)

/--
A pool keeps its cap, its queue and its times in step along a run exactly if
no sweep of the run comes upon a thread that has stopped.
-/
theorem pool_keeps_iff
    (host : Host) (models : List (Text × Path)) (backend : BackendKind)
    (loras : List Path) (maxLoaded : Nat) (idleTimeout : Option Nat)
    (pool : ModelPool)
    (made :
      ModelPool.new host models backend loras maxLoaded idleTimeout =
        .ok pool)
    (calls : List Call) :
    RunKeeps [] ⟨pool, []⟩ calls ↔ RunFindsAlive ⟨pool, []⟩ calls :=
  runKeeps_iff (kept_new made) calls

/-- A machine on which every model loads; this is the next thread. -/
def easyHost (thread now : Nat) : Host where
  isModel _ := true
  resolveRequested _ _ := .ok .gguf
  fitCheckNoFit _ := .ok ()
  placementFor _ := .ok .cpu
  spawnEngine _ _ _ := .ok thread
  now := now

def smallModels : List (Text × Path) :=
  [("a".toList, "a.gguf".toList), ("b".toList, "b.gguf".toList),
    ("c".toList, "c.gguf".toList)]

/-- Three models, one of which may be loaded at a time. -/
def smallPool : Except Text ModelPool :=
  ModelPool.new (easyHost 0 0) smallModels .auto [] 1 (some 0)

theorem pool_keeps_small :
    ∃ pool,
      smallPool = .ok pool ∧
        (RunKeeps [] ⟨pool, []⟩
            [.ensureEngine (easyHost 1 0) "a".toList, .idleSweep 5] ↔
          RunFindsAlive ⟨pool, []⟩
            [.ensureEngine (easyHost 1 0) "a".toList, .idleSweep 5]) :=
  ⟨_, rfl,
    pool_keeps_iff (easyHost 0 0) smallModels .auto [] 1 (some 0) _ rfl
      _⟩

/-- The sweep forgets an engine, and from then on nothing is evicted. -/
theorem pool_overfull :
    ∃ pool,
      smallPool = .ok pool ∧
        ¬ RunKeeps [] ⟨pool, []⟩
          [.ensureEngine (easyHost 1 0) "a".toList, .stop 1,
            .idleSweep 5, .ensureEngine (easyHost 2 6) "b".toList,
            .ensureEngine (easyHost 3 7) "c".toList] := by
  refine ⟨_, rfl, ?_⟩
  rintro ⟨-, -, -, -, ⟨-, last⟩, -⟩
  exact absurd last.capped (by decide)

end Runa.App.Pool
