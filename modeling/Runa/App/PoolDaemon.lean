import Runa.App.RunPaths

/-!
# The daemon's pool

The embedding of `resolve_id` and `insert_spec` behind `resolve_or_insert`,
and of `generate`, of `runa/src/pool.rs`, as a daemon calls them.  The daemon
is started with a context and with adapters, and shares the files and the
binary of its clients, but not their directory.  Its pool comes with a proof
that every engine was loaded from the path its id stands for, and with a list
of what its engines were asked.
-/

namespace Runa.App.PoolDaemon

open Runa.App.Config
open Runa.App.DaemonProto
open Runa.App.Loading
open Runa.App.Pool
open Runa.App.RunPaths
open Runa.Engine.Generate
open Runa.Engine.Placements
open Runa.Engine.Requests
open Runa.Stream.Lines (trim)
open Runa.Stream.Utf8

/-! ## What an engine is asked -/

/-- The settings of a generation that can change its text. -/
structure Settings where
  kind : BackendKind
  path : Path
  kvK : Option KvKind
  kvV : Option KvKind
  mmproj : Option Path
  loras : List LoraSpec
  request : GenerateRequest
deriving DecidableEq

def Settings.of (view : View) (kind : BackendKind) (path : Path)
    (config : LoadConfig) (request : GenerateRequest) : Settings where
  kind := kind
  path := view.located path
  kvK := config.kvK
  kvV := config.kvV
  mmproj := config.mmproj
  loras := config.loras
  request := request

/-- What a run in the process asks. -/
def Built.settings (view : View) (built : Built) : Settings :=
  .of view built.kind built.path built.config built.request

/-! ## The daemon's side -/

/-- The path and the backend that an engine was loaded with. -/
structure Setup where
  path : Path
  kind : BackendKind

/-- The process of a daemon. -/
structure DaemonHost where
  cwd : Path
  fitCheckNoFit : Path → Except Text Unit
  placementFor : Path → Except Text Placement
  spawnEngine : Path → BackendKind → Placement → Except Text Thread
  now : Nat
  alive : Thread → Bool
  setup : Thread → Setup
  /-- A thread runs the engine it was started for. -/
  spawned : ∀ path kind placement thread,
    spawnEngine path kind placement = .ok thread →
      setup thread = ⟨path, kind⟩

section

variable (machine : Machine) (host : DaemonHost)

/-- The files, from the daemon's directory. -/
def daemonView : View :=
  { machine.view with cwd := host.cwd }

def poolHost : Host where
  isModel path :=
    (daemonView machine host).isFile path ||
      (daemonView machine host).isDir path
  resolveRequested := resolveRequested (daemonView machine host)
    machine.mistralrs
  fitCheckNoFit := host.fitCheckNoFit
  placementFor := host.placementFor
  spawnEngine := host.spawnEngine
  now := host.now

/-- The configuration of `cmd_daemon`. -/
def daemonConfig (ctx : UInt32) (loras : List LoraSpec) : LoadConfig :=
  { LoadConfig.default with nCtx := ctx, loras := loras }

/-- A model that the daemon loads. -/
structure Loadable (loras : List LoraSpec) (setup : Setup) : Prop where
  detected :
    resolveRequested (daemonView machine host) machine.mistralrs .auto
      setup.path = .ok setup.kind
  plain : setup.kind = .mistral → loras = []

/-- Every engine was loaded from the path of its id. -/
structure Loaded (loras : List LoraSpec) (pool : ModelPool) : Prop where
  auto : pool.backend = .auto
  adapters : pool.loras = loras.map LoraSpec.path
  engines : ∀ id thread, pool.engines.lookup id = some thread →
    pool.specs.lookup id = some (host.setup thread).path ∧
      Loadable machine host loras (host.setup thread)

end

/-- The state of a daemon. -/
structure Served (machine : Machine) (host : DaemonHost) where
  pool : ModelPool
  ctx : UInt32
  loras : List LoraSpec
  asked : List Settings
  loaded : Loaded machine host loras pool

/-! ## Calls keep the pool -/

section

variable {machine : Machine} {host : DaemonHost} {loras : List LoraSpec}
  {pool : ModelPool} {id other : Text} {path : Path} {thread : Thread}

theorem lookup_evictFrom (queue : List Text)
    (found : (pool.evictFrom queue).engines.lookup id = some thread) :
    pool.engines.lookup id = some thread := by
  induction queue generalizing pool with
  | nil => exact found
  | cons front rest ih =>
      rw [ModelPool.evictFrom] at found
      split_ifs at found with many
      · have kept := ih found
        by_cases same : id = front
        · rw [same, AList.lookup_erase] at kept
          cases kept
        · rwa [AList.lookup_erase_ne same] at kept
      · exact found

/-- Evictions leave all but the engines and their times. -/
theorem evictFrom_rest (queue : List Text) :
    (pool.evictFrom queue).specs = pool.specs ∧
      (pool.evictFrom queue).backend = pool.backend ∧
        (pool.evictFrom queue).loras = pool.loras := by
  induction queue generalizing pool with
  | nil => exact ⟨rfl, rfl, rfl⟩
  | cons front rest ih =>
      rw [ModelPool.evictFrom]
      split_ifs with many
      · exact ih
      · exact ⟨rfl, rfl, rfl⟩

theorem Loaded.insertSpec (loaded : Loaded machine host loras pool)
    (path : Path) :
    Loaded machine host loras
      (pool.insertSpec (poolHost machine host) path).2 := by
  have rest :
      (pool.insertSpec (poolHost machine host) path).2.backend =
          pool.backend ∧
        (pool.insertSpec (poolHost machine host) path).2.loras =
            pool.loras ∧
          (pool.insertSpec (poolHost machine host) path).2.engines =
            pool.engines := by
    have step := pool.inserts (poolHost machine host) path
    generalize pool.insertSpec (poolHost machine host) path = result
      at step ⊢
    cases step with
    | missing absent => exact ⟨rfl, rfl, rfl⟩
    | known there found => exact ⟨rfl, rfl, rfl⟩
    | fresh there unknown named unused => exact ⟨rfl, rfl, rfl⟩
  obtain ⟨backend, adapters, engines⟩ := rest
  constructor
  · exact backend.trans loaded.auto
  · exact adapters.trans loaded.adapters
  · intro id thread running
    rw [engines] at running
    obtain ⟨known, loadable⟩ := loaded.engines id thread running
    exact ⟨lookup_insertSpec _ _ path known, loadable⟩

/-- A pool begins without engines. -/
theorem loaded_new {models : List (Text × Path)} {maxLoaded : Nat}
    {idleTimeout : Option Nat}
    (made : ModelPool.new (poolHost machine host) models .auto
      (loras.map LoraSpec.path) maxLoaded idleTimeout = .ok pool) :
    Loaded machine host loras pool := by
  unfold ModelPool.new at made
  cases registered : registerModels (poolHost machine host) models (∅, [])
    with
  | error error =>
      rw [registered] at made
      cases made
  | ok known =>
      rw [registered] at made
      cases made
      constructor
      · rfl
      · rfl
      · intro id thread running
        cases running

/-- What `load` starts is an engine of the id's path. -/
theorem Loaded.load (loaded : Loaded machine host loras pool)
    (starts : pool.load (poolHost machine host) id = .ok thread) :
    pool.specs.lookup id = some (host.setup thread).path ∧
      Loadable machine host loras (host.setup thread) := by
  unfold ModelPool.load at starts
  cases known : pool.specs.lookup id with
  | none =>
      rw [known] at starts
      cases starts
  | some path =>
      rw [known, loaded.auto, loaded.adapters] at starts
      cases kind : (poolHost machine host).resolveRequested .auto path with
      | error error =>
          simp only [Except.bind, bind, kind] at starts
          cases starts
      | ok found =>
          cases found with
          | auto =>
              simp only [Except.bind, bind, kind] at starts
              cases starts
          | gguf =>
              simp only [Except.bind, bind, kind] at starts
              split at starts
              · cases starts
              · split at starts
                · cases starts
                · rw [host.spawned _ _ _ _ starts]
                  exact ⟨rfl, kind, fun other => by cases other⟩
          | mistral =>
              simp only [Except.bind, bind, kind] at starts
              split_ifs at starts with none
              rw [host.spawned _ _ _ _ starts]
              refine ⟨rfl, kind, fun _ => ?_⟩
              rwa [not_not, List.map_eq_nil_iff] at none

/-- A new engine joins the others, and some of them go. -/
theorem Loaded.loads (loaded : Loaded machine host loras pool)
    (known : pool.specs.lookup id = some (host.setup thread).path)
    (ready : Loadable machine host loras (host.setup thread)) (now : Nat) :
    Loaded machine host loras (pool.loaded id thread now).evictIfNeeded := by
  obtain ⟨specs, backend, adapters⟩ := @evictFrom_rest
    (pool.loaded id thread now) (pool.loaded id thread now).lru
  constructor
  · exact backend.trans loaded.auto
  · exact adapters.trans loaded.adapters
  · intro other there runs
    have kept := lookup_evictFrom _ runs
    change (pool.engines.insert id thread).lookup other = some there
      at kept
    rw [ModelPool.evictIfNeeded, specs]
    by_cases same : other = id
    · rw [same, AList.lookup_insert] at kept
      cases kept
      rw [same]
      exact ⟨known, ready⟩
    · rw [AList.lookup_insert_ne same] at kept
      exact loaded.engines other there kept

/-- An engine that is ready runs the model of its id. -/
theorem Loaded.ensureEngine (loaded : Loaded machine host loras pool)
    (id : Text) :
    Loaded machine host loras
        (pool.ensureEngine (poolHost machine host) id).2 ∧
      ∀ thread,
        (pool.ensureEngine (poolHost machine host) id).1 = .ok thread →
          pool.specs.lookup id = some (host.setup thread).path ∧
            Loadable machine host loras (host.setup thread) := by
  unfold ModelPool.ensureEngine
  cases running : pool.engines.lookup id with
  | some thread =>
      constructor
      · exact ⟨loaded.auto, loaded.adapters, loaded.engines⟩
      · rintro other ⟨⟩
        exact loaded.engines id thread running
  | none =>
      cases starts : pool.load (poolHost machine host) id with
      | error error => exact ⟨loaded, fun _ failed => by cases failed⟩
      | ok thread =>
          obtain ⟨known, ready⟩ := loaded.load starts
          constructor
          · exact loaded.loads known ready _
          · rintro other ⟨⟩
            exact ⟨known, ready⟩

end

/-! ## Requests -/

/-- `resolve_id`: a blank name stands for the first model. -/
def resolveId (pool : ModelPool) (model : Text) : Except Text Text :=
  match pool.order.head? with
  | none => .error "no models configured".toList
  | some first =>
    let id := if trim model = [] then first else trim model
    if id ∈ pool.specs then .ok id
    else .error ("model ".toList ++ id ++ " not found".toList)

section

variable {machine : Machine} {host : DaemonHost}

namespace Served

/-- The daemon of `cmd_daemon`. -/
def start (models : List (Text × Path)) (ctx : UInt32)
    (loras : List LoraSpec) (maxLoaded : Nat)
    (idleTimeout : Option Nat) : Except Text (Served machine host) :=
  match made : ModelPool.new (poolHost machine host) models .auto
      (loras.map LoraSpec.path) maxLoaded idleTimeout with
  | .error error => .error error
  | .ok pool => .ok ⟨pool, ctx, loras, [], loaded_new made⟩

variable (served : Served machine host)

def insertSpec (path : Path) : Except Text Text × Served machine host :=
  let inserted := served.pool.insertSpec (poolHost machine host) path
  (inserted.1,
    { served with
      pool := inserted.2
      loaded := served.loaded.insertSpec path })

/-- A pool id, or an on-disk path to serve on demand. -/
def resolveOrInsert (model : Text) :
    Except Text Text × Served machine host :=
  match resolveId served.pool model with
  | .ok id => (.ok id, served)
  | .error _ =>
    let raw := trim model
    if raw ≠ [] ∧ (daemonView machine host).isFile raw then
      served.insertSpec raw
    else
      (.error ("model ".toList ++ model ++ " not found".toList), served)

def ensureEngine (id : Text) :
    Except Text Thread × Served machine host :=
  let ensured := served.pool.ensureEngine (poolHost machine host) id
  (ensured.1,
    { served with
      pool := ensured.2
      loaded := (served.loaded.ensureEngine id).1 })

/-- What the engine of a thread is asked with a request. -/
def settings (thread : Thread) (request : GenerateRequest) : Settings :=
  .of (daemonView machine host) (host.setup thread).kind
    (host.setup thread).path (daemonConfig served.ctx served.loras) request

def ask (settings : Settings) : Served machine host :=
  { served with asked := served.asked ++ [settings] }

/-- Run one generation on the engine of an id. -/
def generate (answer : Settings → Except Text (List GenEvent)) (id : Text)
    (request : GenerateRequest) :
    Except Text (List GenEvent) × Served machine host :=
  match served.ensureEngine id with
  | (.error error, next) => (.error error, next)
  | (.ok thread, next) =>
    if host.alive thread then
      (answer (next.settings thread request),
        next.ask (next.settings thread request))
    else (.error "engine thread stopped".toList, next)

/-- The path that a name stands for. -/
def fileOf (model : Text) : Option Path :=
  match resolveId served.pool model with
  | .ok id => served.pool.specs.lookup id
  | .error _ => some (trim model)

end Served

/-- A daemon whose engines answer what they are asked. -/
def poolDaemon (answer : Settings → Except Text (List GenEvent)) :
    Daemon (Served machine host) where
  touched := id
  resolveOrInsert := Served.resolveOrInsert
  generate served := served.generate answer

end

end Runa.App.PoolDaemon
