import Runa.App.ServerMail

/-!
# Answers of the server

Whatever else goes on, a request gets the answer that an engine of its model
gives to it alone, or an error that says why there is none.  What the engines
are relied on for is that one whose cache was cleared answers like one that
has just been loaded.
-/

namespace Runa.App.Server

open Runa.App.Pool
open Runa.App.PoolDaemon (resolveId)
open Runa.Concurrent.Mailboxes
open Runa.Engine.Generate
open Runa.Engine.Placements
open Runa.Engine.Requests (GenerateRequest)
open Runa.Stream.Utf8

variable {σ : Type} {engines : LocalEngine σ} {state next : AppState σ}
  {event : Event}

/-! ## Engines -/

/-- What the server relies on.  Engines are the same that were loaded alike,
and fresh without cells of an earlier generation. -/
structure Lawful (engines : LocalEngine σ) (same : σ → σ → Prop)
    (fresh : σ → Prop) : Prop where
  refl : ∀ engine, same engine engine
  generated : ∀ first second request, same first second →
    same first (engines.generate second request).2
  cleared : ∀ first second, same first second →
    same first (engines.clearKv second)
  idled : ∀ first second, same first second →
    same first (engines.onIdle second)
  freshLoad : ∀ now path kind placement engine,
    engines.load now path kind placement = .ok engine → fresh engine
  freshClear : ∀ engine, fresh (engines.clearKv engine)
  freshIdle : ∀ engine, fresh engine → fresh (engines.onIdle engine)
  embed : ∀ first second input, same first second →
    engines.embed second input = engines.embed first input
  generate : ∀ first second request, same first second → fresh first →
    fresh second →
      (engines.generate second request).1 =
        (engines.generate first request).1

variable {same : σ → σ → Prop} {fresh : σ → Prop}

/-- The engine of a thread is the one it started with, and used if so. -/
structure EngineThread.Good (engines : LocalEngine σ)
    (same : σ → σ → Prop) (fresh : σ → Prop) (worker : EngineThread σ) :
    Prop where
  loads : ∃ now kind placement,
    engines.load now worker.path kind placement = .ok worker.loaded
  same : same worker.loaded worker.engine
  fresh : worker.used = false → fresh worker.engine

section

variable {worker : EngineThread σ}

variable (engines) in
theorem work_rest (worker : EngineThread σ) (ask : Ask) :
    (worker.work engines ask).2.path = worker.path ∧
      (worker.work engines ask).2.loaded = worker.loaded ∧
        (worker.work engines ask).2.status = worker.status ∧
          (worker.work engines ask).2.jobs = worker.jobs := by
  cases ask <;> exact ⟨rfl, rfl, rfl, rfl⟩

/-- The engine that a generation starts from. -/
theorem EngineThread.Good.cleared (good : worker.Good engines same fresh)
    (lawful : Lawful engines same fresh) :
    Server.EngineThread.Good engines same fresh
      { worker with
        engine :=
          if worker.used then engines.clearKv worker.engine
          else worker.engine
        used := false } where
  loads := good.loads
  same := by
    simp only
    split_ifs
    · exact lawful.cleared _ _ good.same
    · exact good.same
  fresh := by
    intro _
    simp only
    split_ifs with used
    · exact lawful.freshClear _
    · exact good.fresh (Bool.eq_false_iff.mpr used)

/-- A thread answers as if its engine had just been loaded. -/
theorem work_answer (lawful : Lawful engines same fresh)
    (good : worker.Good engines same fresh) (ask : Ask) :
    (worker.work engines ask).1 = engines.answer worker.loaded ask := by
  cases ask with
  | embed input =>
      simp only [EngineThread.work, LocalEngine.answer]
      rw [lawful.embed _ _ input good.same]
  | generate request =>
      have ready := good.cleared lawful
      rcases good.loads with ⟨now, kind, placement, loads⟩
      simp only [EngineThread.work, LocalEngine.answer]
      rw [lawful.generate _ _ request ready.same
        (lawful.freshLoad _ _ _ _ _ loads) (ready.fresh rfl)]

theorem work_good (lawful : Lawful engines same fresh)
    (good : worker.Good engines same fresh) (ask : Ask) :
    (worker.work engines ask).2.Good engines same fresh := by
  cases ask with
  | embed input => exact good
  | generate request =>
      have ready := good.cleared lawful
      exact
        { loads := good.loads
          same := lawful.generated _ _ request ready.same
          fresh := fun unused => by cases unused }

end

/-- All threads are good. -/
def AllGood (engines : LocalEngine σ) (same : σ → σ → Prop)
    (fresh : σ → Prop) (threads : List (EngineThread σ)) : Prop :=
  ∀ (thread : Thread) (worker : EngineThread σ),
    threads[thread]? = some worker → worker.Good engines same fresh

section

variable {threads : List (EngineThread σ)} {thread : Thread}
  {worker replaced : EngineThread σ}

theorem AllGood.set (good : AllGood engines same fresh threads)
    (there : threads[thread]? = some worker)
    (after : replaced.Good engines same fresh) :
    AllGood engines same fresh (threads.set thread replaced) := by
  intro other found
  rw [getElem?_set_of_some there]
  split_ifs
  · rintro ⟨⟩
    exact after
  · exact good other found

/-- Only what is in the mailbox or the status changes. -/
theorem EngineThread.Good.relabel (good : worker.Good engines same fresh)
    (path : replaced.path = worker.path)
    (loaded : replaced.loaded = worker.loaded)
    (engine : replaced.engine = worker.engine)
    (used : replaced.used = worker.used) :
    replaced.Good engines same fresh where
  loads := by
    rw [path, loaded]
    exact good.loads
  same := by
    rw [loaded, engine]
    exact good.same
  fresh := by
    rw [used, engine]
    exact good.fresh

theorem AllGood.append (good : AllGood engines same fresh threads)
    (after : worker.Good engines same fresh) :
    AllGood engines same fresh (threads ++ [worker]) := by
  intro other found there
  rcases List.getElem?_eq_some_iff.mp there with ⟨short, found⟩
  rcases List.mem_append.mp (List.getElem_mem short) with old | new
  · rw [found] at old
    rcases List.mem_iff_getElem?.mp old with ⟨index, there⟩
    exact good index _ there
  · rw [found, List.mem_singleton] at new
    rwa [new]

theorem AllGood.ensures (lawful : Lawful engines same fresh)
    {machine : Machine} {id : Text} {result : Except Text Thread}
    (good : AllGood engines same fresh state.threads)
    (ensures : Ensures engines state machine id result next) :
    AllGood engines same fresh next.threads := by
  cases ensures with
  | known found => exact good
  | failed absent fails => exact good
  | started absent starts =>
      rcases startEngine_ok starts with
        ⟨-, same, now, kind, placement, loads⟩
      apply good.append
      rw [same]
      exact
        { loads := ⟨now, kind, placement, loads⟩
          same := lawful.refl _
          fresh := fun _ => lawful.freshLoad _ _ _ _ _ loads }

theorem AllGood.step (lawful : Lawful engines same fresh)
    (good : AllGood engines same fresh state.threads)
    (step : Step engines state event next) :
    AllGood engines same fresh next.threads := by
  cases step with
  | hold found phase resolved ensures =>
      have kept := good.ensures lawful ensures
      exact kept
  | warm ensures => exact good.ensures lawful ensures
  | send found phase right follows there running =>
      exact good.set there
        ((good _ _ there).relabel rfl rfl rfl rfl)
  | sweep now =>
      apply idle_keeps (AllGood engines same fresh) _ _ _ good
      intro threads thread worker good there
      exact good.set there ((good _ _ there).relabel rfl rfl rfl rfl)
  | take there running =>
      exact good.set there
        ((good _ _ there).relabel rfl rfl rfl rfl)
  | @serve thread worker ask resp there running hand =>
      rw [(deliver_rest _ _ _).2.2.1]
      exact good.set there
        ((work_good lawful (good _ _ there) ask).relabel rfl rfl rfl rfl)
  | @idle thread worker there running hand =>
      have before := good _ _ there
      apply good.set there
      exact
        { loads := before.loads
          same := lawful.idled _ _ before.same
          fresh := fun unused => lawful.freshIdle _ (before.fresh unused) }
  | leave there running finished alone =>
      exact good.set there
        ((good _ _ there).relabel rfl rfl rfl rfl)
  | die there running =>
      exact good.set there
        ((good _ _ there).relabel rfl rfl rfl rfl)
  | _ => exact good

end

/-! ## What a request is promised -/

/-- The path of the model that a request asks for. -/
def Serves (start : ModelPool) (defaultId : Text) (model : Option Text)
    (path : Path) : Prop :=
  ∃ id, resolveId start (modelId defaultId model) = .ok id ∧
    start.specs.lookup id = some path

/-- The outputs so far are what an engine answers to the first jobs. -/
def Done (engines : LocalEngine σ) (engine : σ) (asks : List Ask)
    (outputs : List Output) : Prop :=
  (asks.take outputs.length).map (engines.answer engine) =
    outputs.map .ok

/-- A thread for a path has died. -/
def Died (threads : List (EngineThread σ)) (path : Path) : Prop :=
  ∃ (thread : Thread) (worker : EngineThread σ),
    threads[thread]? = some worker ∧ worker.status = .died ∧
      worker.path = path

/-- The answers that a request may get.  An engine of its model, and nothing
but its own jobs, decides the outputs. -/
inductive Answers (engines : LocalEngine σ) (start : ModelPool)
    (defaultId : Text) (died : Path → Prop) (request : Request) :
    Reply → Prop where
  | refused {error : Text} (bad : request.body.asks = .error error) :
      Answers engines start defaultId died request (.error (400, error))
  | unknown {error : Text}
      (missing :
        resolveId start (modelId defaultId request.model) = .error error) :
      Answers engines start defaultId died request
        (.error (errorStatus error, error))
  | unloaded {error id : Text} {machine : Machine}
      (resolved :
        resolveId start (modelId defaultId request.model) = .ok id)
      (fails : startEngine start machine engines id = .error error) :
      Answers engines start defaultId died request
        (.error (errorStatus error, error))
  | answered {path : Path} {now : Nat} {kind : BackendKind}
      {placement : Placement} {engine : σ} {asks : List Ask}
      {outputs : List Output}
      (good : request.body.asks = .ok asks)
      (serves : Serves start defaultId request.model path)
      (loads : engines.load now path kind placement = .ok engine)
      (own : asks.map (engines.answer engine) = outputs.map .ok) :
      Answers engines start defaultId died request (.ok outputs)
  | failed {path : Path} {now : Nat} {kind : BackendKind}
      {placement : Placement} {engine : σ} {asks : List Ask} {ask : Ask}
      {outputs : List Output} {error : Text}
      (good : request.body.asks = .ok asks)
      (serves : Serves start defaultId request.model path)
      (loads : engines.load now path kind placement = .ok engine)
      (done : Done engines engine asks outputs)
      (next : asks[outputs.length]? = some ask)
      (fails : engines.answer engine ask = .error error) :
      Answers engines start defaultId died request (.error (500, error))
  | lost {path : Path} {error : Text}
      (serves : Serves start defaultId request.model path)
      (dead : died path)
      (said :
        error ∈ ["engine thread stopped".toList,
          "channel closed".toList]) :
      Answers engines start defaultId died request (.error (500, error))

theorem Answers.mono {start : ModelPool} {defaultId : Text}
    {died later : Path → Prop} {request other : Request} {reply : Reply}
    (answers : Answers engines start defaultId died request reply)
    (still : ∀ path, died path → later path)
    (model : other.model = request.model)
    (body : other.body = request.body) :
    Answers engines start defaultId later other reply := by
  cases answers with
  | refused bad => exact .refused (by rwa [body])
  | unknown missing => exact .unknown (by rwa [model])
  | unloaded resolved fails => exact .unloaded (by rwa [model]) fails
  | answered good serves loads own =>
      exact .answered (by rwa [body]) (by rwa [model]) loads own
  | failed good serves loads done next fails =>
      exact .failed (by rwa [body]) (by rwa [model]) loads done next fails
  | lost serves dead said =>
      exact .lost (by rwa [model]) (still _ dead) said

/-- A request that has the end of a channel. -/
structure Engaged (engines : LocalEngine σ) (start : ModelPool)
    (defaultId : Text) (threads : List (EngineThread σ))
    (request : Request) (thread : Thread) (outputs : List Output)
    (asks : List Ask) (worker : EngineThread σ) : Prop where
  good : request.body.asks = .ok asks
  there : threads[thread]? = some worker
  stays : worker.status ≠ .left
  serves : Serves start defaultId request.model worker.path
  done : Done engines worker.loaded asks outputs
  more : outputs.length < asks.length

/-- What is known of the answer to a job. -/
def Told (engines : LocalEngine σ) (worker : EngineThread σ)
    (ask : Ask) (resp : Resp) : Option (Except Text Output) → Prop
  | none =>
      worker.status = .running ∧
        EngineJob.ask ask resp ∈ worker.jobs.pending
  | some reply =>
      reply = engines.answer worker.loaded ask ∨
        (reply = .error "channel closed".toList ∧ worker.status = .died)

/-- What is known of a request where it stands. -/
def Request.Good (engines : LocalEngine σ) (start : ModelPool)
    (defaultId : Text) (threads : List (EngineThread σ)) (index : Nat)
    (request : Request) : Prop :=
  match request.phase with
  | .waiting | .gone => True
  | .admitted => ∃ asks, request.body.asks = .ok asks
  | .holding thread outputs =>
      ∃ asks worker,
        Engaged engines start defaultId threads request thread outputs
          asks worker
  | .awaiting thread outputs reply =>
      ∃ asks worker ask,
        Engaged engines start defaultId threads request thread outputs
            asks worker ∧
          asks[outputs.length]? = some ask ∧
            Told engines worker ask ⟨index, outputs.length⟩ reply
  | .answered reply =>
      Answers engines start defaultId (Died threads) request reply

/-! ## What a request sees of the threads -/

/-- A thread goes on, with the jobs of a request. -/
structure Continues (index : Nat) (old new : EngineThread σ) : Prop where
  path : new.path = old.path
  loaded : new.loaded = old.loaded
  status : new.status = old.status
  pending : ∀ ask number,
    EngineJob.ask ask ⟨index, number⟩ ∈ old.jobs.pending →
      EngineJob.ask ask ⟨index, number⟩ ∈ new.jobs.pending

section

variable {start : ModelPool} {defaultId : Text} {index : Nat}
  {request : Request} {threads later : List (EngineThread σ)}
  {thread : Thread} {worker replaced : EngineThread σ}
  {asks : List Ask} {outputs : List Output}

theorem Continues.refl (worker : EngineThread σ) :
    Continues index worker worker :=
  ⟨rfl, rfl, rfl, fun _ _ member => member⟩

theorem Engaged.continues
    (engaged : Engaged engines start defaultId threads request thread
      outputs asks worker)
    (there : later[thread]? = some replaced)
    (continues : Continues index worker replaced) :
    Engaged engines start defaultId later request thread outputs asks
      replaced where
  good := engaged.good
  there := there
  stays := by
    rw [continues.status]
    exact engaged.stays
  serves := by
    rw [continues.path]
    exact engaged.serves
  done := by
    rw [continues.loaded]
    exact engaged.done
  more := engaged.more

/-- What is engaged is so in any phase. -/
theorem Engaged.rephase
    (engaged : Engaged engines start defaultId threads request thread
      outputs asks worker) (phase : Phase) :
    Engaged engines start defaultId threads { request with phase := phase }
      thread outputs asks worker :=
  ⟨engaged.good, engaged.there, engaged.stays, engaged.serves,
    engaged.done, engaged.more⟩

theorem Engaged.died
    (engaged : Engaged engines start defaultId threads request thread
      outputs asks worker)
    (there : later[thread]? = some { worker with status := .died }) :
    Engaged engines start defaultId later request thread outputs asks
      { worker with status := .died } :=
  ⟨engaged.good, there, by simp, engaged.serves, engaged.done,
    engaged.more⟩

theorem Told.continues {ask : Ask} {number : Nat}
    {reply : Option (Except Text Output)}
    (told : Told engines worker ask ⟨index, number⟩ reply)
    (continues : Continues index worker replaced) :
    Told engines replaced ask ⟨index, number⟩ reply := by
  cases reply with
  | none =>
      exact ⟨continues.status.trans told.1, continues.pending _ _ told.2⟩
  | some reply =>
      unfold Told at told ⊢
      rwa [continues.loaded, continues.status]

/-- A request keeps its place when its own thread goes on. -/
theorem Request.Good.continues
    (good : request.Good engines start defaultId threads index)
    (dead : ∀ path, Died threads path → Died later path)
    (goes : ∀ thread worker, request.phase.sender = some thread →
      threads[thread]? = some worker →
        ∃ replaced, later[thread]? = some replaced ∧
          Continues index worker replaced) :
    request.Good engines start defaultId later index := by
  unfold Request.Good at good ⊢
  cases phase : request.phase with
  | waiting => trivial
  | gone => trivial
  | admitted =>
      rw [phase] at good
      exact good
  | answered reply =>
      rw [phase] at good
      exact good.mono dead rfl rfl
  | holding thread outputs =>
      rw [phase] at good
      rcases good with ⟨asks, worker, engaged⟩
      rcases goes thread worker (by rw [phase]; rfl) engaged.there with
        ⟨replaced, there, continues⟩
      exact ⟨asks, replaced, engaged.continues there continues⟩
  | awaiting thread outputs reply =>
      rw [phase] at good
      rcases good with ⟨asks, worker, ask, engaged, next, told⟩
      rcases goes thread worker (by rw [phase]; rfl) engaged.there with
        ⟨replaced, there, continues⟩
      exact ⟨asks, replaced, ask, engaged.continues there continues, next,
        told.continues continues⟩

/-! ## The engines of the pool -/

/-- An engine of the pool still receives, or died, and has the path of its
id. -/
def PoolLeads (start pool : ModelPool) (threads : List (EngineThread σ)) :
    Prop :=
  ∀ id thread, pool.engines.lookup id = some thread →
    ∃ worker : EngineThread σ, threads[thread]? = some worker ∧
      worker.status ≠ .left ∧ start.specs.lookup id = some worker.path

section

variable {pool : ModelPool}

theorem PoolLeads.within (leads : PoolLeads start pool threads)
    {after : ModelPool} (within : Within pool after) :
    PoolLeads start after threads :=
  fun id thread found => leads id thread (within.engines id thread found)

/-- The pool is led on when one thread changes. -/
theorem PoolLeads.set (leads : PoolLeads start pool threads)
    (there : threads[thread]? = some worker)
    (path : replaced.path = worker.path)
    (stays : (∃ id, pool.engines.lookup id = some thread) →
      worker.status ≠ .left → replaced.status ≠ .left) :
    PoolLeads start pool (threads.set thread replaced) := by
  intro id other found
  rcases leads id other found with ⟨old, known, keeps, named⟩
  rw [getElem?_set_of_some there]
  split_ifs with same
  · subst same
    rw [there] at known
    cases known
    exact ⟨replaced, rfl, stays ⟨id, found⟩ keeps, by rwa [path]⟩
  · exact ⟨old, known, keeps, named⟩

theorem PoolLeads.ensures {machine : Machine} {id : Text}
    {result : Except Text Thread}
    (configured : Configured start state.pool)
    (leads : PoolLeads start state.pool state.threads)
    (ensures : Ensures engines state machine id result next) :
    PoolLeads start next.pool next.threads ∧
      ∀ thread, result = .ok thread →
        ∃ worker : EngineThread σ, next.threads[thread]? = some worker ∧
          worker.status ≠ .left ∧
            start.specs.lookup id = some worker.path := by
  cases ensures with
  | known found =>
      constructor
      · exact leads
      · rintro thread ⟨⟩
        exact leads id _ found
  | failed absent fails => exact ⟨leads, fun _ failed => by cases failed⟩
  | @started absent worker starts =>
      rcases startEngine_ok starts with ⟨known, fresh, -⟩
      have stays : worker.status ≠ .left := by
        rw [fresh]
        simp [EngineThread.start]
      have last :
          (state.threads ++ [worker])[state.threads.length]? =
            some worker :=
        List.getElem?_concat_length
      rw [configured.specs] at known
      constructor
      · refine PoolLeads.within
          (?_ : PoolLeads start
            (state.pool.loaded id state.threads.length machine.now) _)
          (evictFrom_within _ _)
        intro other thread found
        change (state.pool.engines.insert id
          state.threads.length).lookup other = some thread at found
        by_cases same : other = id
        · rw [same, AList.lookup_insert] at found
          cases found
          rw [same]
          exact ⟨worker, last, stays, known⟩
        · rw [AList.lookup_insert_ne same] at found
          rcases leads other thread found with ⟨old, there, rest⟩
          exact ⟨old, lookup_of_append there, rest⟩
      · rintro thread ⟨⟩
        exact ⟨worker, last, stays, known⟩

end

theorem PoolLeads.step (configured : Configured start state.pool)
    (leads : PoolLeads start state.pool state.threads)
    (step : Step engines state event next) :
    PoolLeads start next.pool next.threads := by
  cases step with
  | hold found phase resolved ensures =>
      have kept := (leads.ensures configured ensures).1
      exact kept
  | warm ensures => exact (leads.ensures configured ensures).1
  | send found phase right follows there running =>
      exact leads.set there rfl fun _ stays => stays
  | sweep now =>
      apply PoolLeads.within _ (idleSweep_within _ _ _)
      apply idle_keeps (PoolLeads start state.pool) _ _ _ leads
      intro threads thread worker leads there
      exact leads.set there rfl fun _ stays => stays
  | take there running => exact leads.set there rfl fun _ stays => stays
  | @serve thread worker ask resp there running hand =>
      rw [(deliver_rest _ _ _).1, (deliver_rest _ _ _).2.2.1]
      rcases work_rest engines worker ask with
        ⟨path, -, status, -⟩
      refine leads.set there path fun _ stays => ?_
      show (worker.work engines ask).2.status ≠ _
      rwa [status]
  | idle there running hand =>
      exact leads.set there rfl fun _ stays => stays
  | leave there running finished alone =>
      refine leads.set there rfl ?_
      rintro ⟨id, found⟩
      exact ((not_referenced alone).1 id found).elim
  | die there running =>
      refine leads.set there rfl fun _ _ => ?_
      simp
  | _ => exact leads

/-! ## Every request -/

def AllServed (engines : LocalEngine σ) (start : ModelPool)
    (defaultId : Text) (threads : List (EngineThread σ))
    (requests : List Request) : Prop :=
  ∀ (index : Nat) (request : Request), requests[index]? = some request →
    request.Good engines start defaultId threads index

theorem died_set (there : threads[thread]? = some worker)
    (path : replaced.path = worker.path)
    (status : worker.status = .died → replaced.status = .died) :
    ∀ path, Died threads path → Died (threads.set thread replaced) path := by
  rintro place ⟨other, dead, found, died, named⟩
  refine ⟨other, if other = thread then replaced else dead, ?_⟩
  rw [getElem?_set_of_some there]
  split_ifs with same
  · subst same
    rw [there] at found
    cases found
    exact ⟨rfl, status died, path.trans named⟩
  · exact ⟨found, died, named⟩

theorem died_append (worker : EngineThread σ) :
    ∀ path, Died threads path → Died (threads ++ [worker]) path := by
  rintro path ⟨thread, dead, found, rest⟩
  exact ⟨thread, dead, lookup_of_append found, rest⟩

/-- One thread goes on for a request, and the others do nothing. -/
theorem Request.Good.set
    (good : request.Good engines start defaultId threads index)
    (there : threads[thread]? = some worker)
    (path : replaced.path = worker.path)
    (status : worker.status = .died → replaced.status = .died)
    (goes : request.phase.sender = some thread →
      Continues index worker replaced) :
    request.Good engines start defaultId (threads.set thread replaced)
      index := by
  apply good.continues (died_set there path status)
  intro other old sends found
  rw [getElem?_set_of_some there]
  split_ifs with same
  · subst same
    rw [there] at found
    cases found
    exact ⟨replaced, rfl, goes sends⟩
  · exact ⟨old, found, .refl old⟩

section

variable {requests : List Request}

theorem AllServed.set
    (served : AllServed engines start defaultId threads requests)
    (there : threads[thread]? = some worker)
    (goes : ∀ index, Continues index worker replaced) :
    AllServed engines start defaultId (threads.set thread replaced)
      requests := by
  intro index request found
  refine (served index request found).set there (goes index).path ?_
    fun _ => goes index
  rw [(goes index).status]
  exact id

theorem AllServed.append
    (served : AllServed engines start defaultId threads requests)
    (worker : EngineThread σ) :
    AllServed engines start defaultId (threads ++ [worker]) requests := by
  intro index request found
  apply (served index request found).continues (died_append worker)
  exact fun thread old _ there =>
    ⟨old, lookup_of_append there, .refl old⟩

theorem AllServed.replace
    (served : AllServed engines start defaultId threads requests)
    (found : requests[index]? = some request) {changed : Request}
    (good : changed.Good engines start defaultId threads index) :
    AllServed engines start defaultId threads
      (requests.set index changed) := by
  intro other later there
  rw [getElem?_set_of_some found] at there
  split_ifs at there with same
  · cases there
    rw [same]
    exact good
  · exact served other later there

end

theorem asks_pos {body : Body} (good : body.asks = .ok asks) :
    0 < asks.length := by
  cases body with
  | generation request =>
      cases request with
      | error error => cases good
      | ok request =>
          cases good
          exact Nat.one_pos
  | embeddings inputs =>
      cases inputs with
      | nil => cases good
      | cons first rest =>
          cases good
          exact Nat.succ_pos _

/-- One more output, which is the engine's own. -/
theorem Done.more {engine : σ} {ask : Ask} {output : Output}
    (done : Done engines engine asks outputs)
    (next : asks[outputs.length]? = some ask)
    (own : engines.answer engine ask = .ok output) :
    Done engines engine asks (outputs ++ [output]) := by
  unfold Done at done ⊢
  rw [List.length_append, List.length_singleton, List.take_add_one, next,
    List.map_append, List.map_append, done]
  simp [own]

/-- What the server keeps. -/
structure Sound (engines : LocalEngine σ) (same : σ → σ → Prop)
    (fresh : σ → Prop) (start : ModelPool) (defaultId : Text)
    (state : AppState σ) : Prop where
  configured : Configured start state.pool
  named : state.defaultId = defaultId
  threads : AllGood engines same fresh state.threads
  leads : PoolLeads start state.pool state.threads
  once : Once state
  posted : Posted state
  served : AllServed engines start defaultId state.threads state.requests

section

variable {machine : Machine} {id : Text} {result : Except Text Thread}

theorem Sound.ensures
    (sound : Sound engines same fresh start defaultId state)
    (ensures : Ensures engines state machine id result next) :
    AllServed engines start defaultId next.threads next.requests := by
  cases ensures with
  | known found => exact sound.served
  | failed absent fails => exact sound.served
  | started absent starts => exact sound.served.append _

theorem Sound.hold
    (sound : Sound engines same fresh start defaultId state)
    (found : state.requests[index]? = some request)
    (phase : request.phase = .admitted)
    (resolved :
      resolveId state.pool (modelId state.defaultId request.model) =
        .ok id)
    (ensures : Ensures engines state machine id (.ok thread) next) :
    AllServed engines start defaultId next.threads
      (next.requests.set index
        { request with phase := .holding thread [] }) := by
  have good := sound.served index request found
  unfold Request.Good at good
  rw [phase] at good
  rcases good with ⟨asks, good⟩
  rcases (sound.leads.ensures sound.configured ensures).2 thread rfl with
    ⟨worker, there, stays, known⟩
  rw [sound.configured.resolveId, sound.named] at resolved
  have same := (Admits.ensures rfl ensures).2.1
  rw [← same] at found
  apply (sound.ensures ensures).replace found
  exact ⟨asks, worker,
    { good := good
      there := there
      stays := stays
      serves := ⟨id, resolved, known⟩
      done := rfl
      more := asks_pos good }⟩

end

/-- What a request waits for stays what it is told. -/
theorem Sound.send
    (sound : Sound engines same fresh start defaultId state)
    (found : state.requests[index]? = some request)
    (holds : request.phase = .holding thread outputs)
    (good : request.body.asks = .ok asks) {ask : Ask}
    (follows : asks[outputs.length]? = some ask)
    (there : state.threads[thread]? = some worker)
    (running : worker.status = .running) :
    AllServed engines start defaultId
      (state.threads.set thread
        (worker.send (.ask ask ⟨index, outputs.length⟩)))
      (state.requests.set index
        { request with phase := .awaiting thread outputs none }) := by
  have goes : ∀ other, Continues other worker
      (worker.send (.ask ask ⟨index, outputs.length⟩)) := by
    refine fun other => ⟨rfl, rfl, rfl, fun more number member => ?_⟩
    show _ ∈ (worker.jobs.send _).pending
    rw [Mailbox.pending_send]
    exact List.mem_append_left _ member
  apply (sound.served.set there goes).replace found
  have before := sound.served index request found
  unfold Request.Good at before
  rw [holds] at before
  rcases before with ⟨asks', worker', engaged⟩
  have same := engaged.there
  rw [there] at same
  cases same
  have same := engaged.good
  rw [good] at same
  cases same
  have sent :
      (state.threads.set thread
        (worker.send (.ask ask ⟨index, outputs.length⟩)))[thread]? =
          some (worker.send (.ask ask ⟨index, outputs.length⟩)) := by
    rw [getElem?_set_of_some there, if_pos rfl]
  have after := engaged.continues sent (goes index)
  refine ⟨asks, worker.send (.ask ask ⟨index, outputs.length⟩), ask,
    after.rephase _, follows, running, ?_⟩
  show _ ∈ (worker.jobs.send _).pending
  rw [Mailbox.pending_send]
  exact List.mem_append_right _ List.mem_cons_self

/-- A job is done: of all requests that send to its thread, only the one it
is for may see it. -/
theorem Sound.serve_others
    (sound : Sound engines same fresh start defaultId state)
    (there : state.threads[thread]? = some worker) {ask : Ask} {resp : Resp}
    (hand : worker.jobs.hand = some (.ask ask resp))
    (path : replaced.path = worker.path)
    (loaded : replaced.loaded = worker.loaded)
    (status : replaced.status = worker.status)
    (jobs : replaced.jobs = worker.jobs.finish) {other : Request}
    (known : state.requests[index]? = some other)
    (quiet : index = resp.request → other.phase.sender = none) :
    other.Good engines start defaultId (state.threads.set thread replaced)
      index := by
  have dies : worker.status = .died → replaced.status = .died := by
    rw [status]
    exact id
  refine (sound.served index other known).set there path dies
    fun sends => ⟨path, loaded, status, fun more number member => ?_⟩
  rw [Mailbox.pending_of_hand hand] at member
  rw [jobs]
  rcases List.mem_cons.mp member with same | later
  · cases same
    rw [quiet rfl] at sends
    cases sends
  · exact later

/-- The request it is for is told what its engine answers. -/
theorem Sound.serve_told (lawful : Lawful engines same fresh)
    (sound : Sound engines same fresh start defaultId state)
    (there : state.threads[thread]? = some worker) {ask : Ask} {resp : Resp}
    (hand : worker.jobs.hand = some (.ask ask resp))
    (path : replaced.path = worker.path)
    (loaded : replaced.loaded = worker.loaded)
    (status : replaced.status = worker.status) {request : Request}
    {outputs : List Output}
    (found : state.requests[resp.request]? = some request)
    (phase : request.phase = .awaiting thread outputs none)
    (number : resp.index = outputs.length) :
    Request.Good engines start defaultId
      (state.threads.set thread replaced) resp.request
      { request with
        phase :=
          .awaiting thread outputs (some (worker.work engines ask).1) } := by
  have good := sound.served _ request found
  unfold Request.Good at good
  rw [phase] at good
  rcases good with ⟨asks, worker', ask', engaged, next, -, member⟩
  have same := engaged.there
  rw [there] at same
  cases same
  have same : ask' = ask := by
    rw [Mailbox.pending_of_hand hand, ← number] at member
    rcases List.mem_cons.mp member with same | later
    · cases same
      rfl
    · exact (sound.once.hand there hand later).elim
  subst same
  refine ⟨asks, replaced, ask', ?_, next, Or.inl ?_⟩
  · exact
      { good := engaged.good
        there := by
          show (state.threads.set thread replaced)[thread]? = _
          rw [getElem?_set_of_some there, if_pos rfl]
        stays := by
          rw [status]
          exact engaged.stays
        serves := by
          rw [path]
          exact engaged.serves
        done := by
          rw [loaded]
          exact engaged.done
        more := engaged.more }
  · rw [loaded]
    exact work_answer lawful (sound.threads _ _ there) ask'

theorem Sound.serve (lawful : Lawful engines same fresh)
    (sound : Sound engines same fresh start defaultId state)
    (there : state.threads[thread]? = some worker)
    (running : worker.status = .running) {ask : Ask} {resp : Resp}
    (hand : worker.jobs.hand = some (.ask ask resp))
    (path : replaced.path = worker.path)
    (loaded : replaced.loaded = worker.loaded)
    (status : replaced.status = worker.status)
    (jobs : replaced.jobs = worker.jobs.finish) :
    AllServed engines start defaultId
      ((state.setThread thread replaced).deliver resp
        (worker.work engines ask).1).threads
      ((state.setThread thread replaced).deliver resp
        (worker.work engines ask).1).requests := by
  rcases sound.posted thread worker ask resp there running
      (by rw [Mailbox.pending_of_hand hand]; exact List.mem_cons_self) with
    ⟨request, found, waits⟩
  rcases deliver_cases (state.setThread thread replaced) resp
      (worker.work engines ask).1 with
    ⟨same, unheard⟩ | ⟨told, other, outputs, known, phase, number, same⟩
  · rw [same]
    intro index other known
    apply sound.serve_others there hand path loaded status jobs known
    rintro rfl
    change state.requests[resp.request]? = _ at known
    rw [found] at known
    cases known
    unfold Phase.waitsFor at waits
    split at waits
    · rename_i phase
      rw [phase]
      rfl
    · rename_i phase
      exact (unheard _ _ _ found phase waits.2).elim
    all_goals cases waits
  · rw [same]
    change state.requests[resp.request]? = _ at known
    rw [found] at known
    cases known
    intro index later known
    change (state.requests.set resp.request _)[index]? = _ at known
    rw [getElem?_set_of_some found] at known
    split_ifs at known with equal
    · cases known
      subst equal
      rw [phase] at waits
      rcases waits with ⟨rfl, -⟩
      exact sound.serve_told lawful there hand path loaded status found phase
        number
    · exact sound.serve_others there hand path loaded status jobs known
        fun named => (equal named).elim

/-- Requests hear of it when their thread dies. -/
theorem Sound.die
    (sound : Sound engines same fresh start defaultId state)
    (there : state.threads[thread]? = some worker)
    (running : worker.status = .running) :
    AllServed engines start defaultId (state.die thread worker).threads
      (state.die thread worker).requests := by
  intro index request known
  change (state.requests.map _)[index]? = _ at known
  rw [List.getElem?_map, Option.map_eq_some_iff] at known
  rcases known with ⟨before, found, rfl⟩
  have good := sound.served index before found
  have mine : (state.die thread worker).threads[thread]? =
      some { worker with status := .died } := by
    show (state.threads.set thread _)[thread]? = _
    rw [getElem?_set_of_some there, if_pos rfl]
  by_cases sends : before.phase.sender = some thread
  · unfold Request.Good at good ⊢
    cases phase : before.phase with
    | holding other outputs =>
        rw [phase] at good sends
        cases sends
        rcases good with ⟨asks, worker', engaged⟩
        have same := engaged.there
        rw [there] at same
        cases same
        exact ⟨asks, _, (engaged.died mine).rephase _⟩
    | awaiting other outputs reply =>
        rw [phase] at good sends
        cases sends
        rcases good with ⟨asks, worker', ask, engaged, next, told⟩
        have same := engaged.there
        rw [there] at same
        cases same
        have after := engaged.died mine
        cases reply with
        | none =>
            simp only [Phase.dropped, if_true]
            exact ⟨asks, _, ask, after.rephase _, next,
              Or.inr ⟨rfl, rfl⟩⟩
        | some reply =>
            refine ⟨asks, _, ask, after.rephase _, next, ?_⟩
            rcases told with own | ⟨-, died⟩
            · exact Or.inl own
            · rw [running] at died
              cases died
    | _ => rw [phase] at sends; cases sends
  · have same : before.phase.dropped thread = before.phase := by
      unfold Phase.dropped
      split
      · rename_i other outputs phase
        rw [phase] at sends
        rw [if_neg (fun same => sends (by rw [same]; rfl)), phase]
      · rfl
    rw [same]
    exact good.set there rfl (fun _ => rfl) fun named => (sends named).elim

theorem Sound.leave
    (sound : Sound engines same fresh start defaultId state)
    (there : state.threads[thread]? = some worker)
    (running : worker.status = .running)
    (alone : state.referenced thread = false) :
    AllServed engines start defaultId
      (state.threads.set thread { worker with status := .left })
      state.requests := by
  intro index request found
  refine (sound.served index request found).set there rfl
    (fun died => ?_) fun sends => ?_
  · rw [running] at died
    cases died
  · exact ((not_referenced alone).2 request (List.mem_of_getElem? found)
      sends).elim

/-- What a request is told decides how it goes on. -/
theorem Sound.told
    (sound : Sound engines same fresh start defaultId state)
    (found : state.requests[index]? = some request)
    {reply : Except Text Output}
    (phase : request.phase = .awaiting thread outputs (some reply)) :
    ∃ asks worker ask,
      Engaged engines start defaultId state.threads request thread outputs
          asks worker ∧
        asks[outputs.length]? = some ask ∧
          (reply = engines.answer worker.loaded ask ∨
            (reply = .error "channel closed".toList ∧
              worker.status = .died)) := by
  have good := sound.served index request found
  unfold Request.Good at good
  rw [phase] at good
  exact good

theorem Sound.wakeFailed
    (sound : Sound engines same fresh start defaultId state)
    (found : state.requests[index]? = some request) {error : Text}
    (phase :
      request.phase = .awaiting thread outputs (some (.error error))) :
    Answers engines start defaultId (Died state.threads) request
      (.error (500, error)) := by
  rcases sound.told found phase with
    ⟨asks, worker, ask, engaged, next, own | ⟨said, died⟩⟩
  · rcases (sound.threads _ _ engaged.there).loads with
      ⟨now, kind, placement, loads⟩
    exact .failed engaged.good engaged.serves loads engaged.done next
      own.symm
  · cases said
    exact .lost engaged.serves ⟨thread, worker, engaged.there, died, rfl⟩
      (by simp)

theorem Sound.wakeDone
    (sound : Sound engines same fresh start defaultId state)
    (found : state.requests[index]? = some request) {output : Output}
    (phase :
      request.phase = .awaiting thread outputs (some (.ok output)))
    (good : request.body.asks = .ok asks)
    (last : asks.length ≤ outputs.length + 1) :
    Answers engines start defaultId (Died state.threads) request
      (.ok (outputs ++ [output])) := by
  rcases sound.told found phase with
    ⟨asks', worker, ask, engaged, next, own | ⟨said, -⟩⟩
  · rcases (sound.threads _ _ engaged.there).loads with
      ⟨now, kind, placement, loads⟩
    have same := engaged.good
    rw [good] at same
    cases same
    have all := engaged.done.more next own.symm
    unfold Done at all
    rw [List.length_append, List.length_singleton,
      List.take_of_length_le last] at all
    exact .answered good engaged.serves loads all
  · cases said

theorem AllServed.finish
    (served : AllServed engines start defaultId state.threads
      state.requests)
    (found : state.requests[index]? = some request) {reply : Reply}
    (answers :
      Answers engines start defaultId (Died state.threads) request
        reply) :
    AllServed engines start defaultId state.threads
      (state.requests.set index
        { request with phase := .answered reply }) :=
  served.replace found (answers.mono (fun _ => id) rfl rfl)

theorem Sound.served_step (lawful : Lawful engines same fresh)
    (sound : Sound engines same fresh start defaultId state)
    (step : Step engines state event next) :
    AllServed engines start defaultId next.threads next.requests := by
  have served := sound.served
  cases step with
  | stay event => exact served
  | arrive model body =>
      intro index request found
      rcases List.getElem?_eq_some_iff.mp found with ⟨short, equal⟩
      rcases List.mem_append.mp (List.getElem_mem short) with old | new
      · rcases Nat.lt_or_ge index state.requests.length with old | new
        · rw [List.getElem?_append_left old] at found
          exact served index request found
        · rw [List.getElem?_append_right new,
            List.getElem?_singleton] at found
          split_ifs at found
          cases found
          trivial
      · rw [equal, List.mem_singleton] at new
        subst new
        trivial
  | refuse found phase bad => exact served.finish found (.refused bad)
  | acquire found phase good permit =>
      exact served.replace found ⟨_, good⟩
  | unknown found phase missing =>
      rw [sound.configured.resolveId, sound.named] at missing
      exact served.finish found (.unknown missing)
  | unloaded found phase resolved fails =>
      rw [sound.configured.resolveId, sound.named] at resolved
      rw [sound.configured.startEngine] at fails
      exact served.finish found (.unloaded resolved fails)
  | hold found phase resolved ensures =>
      exact sound.hold found phase resolved ensures
  | send found phase good follows there running =>
      exact sound.send found phase good follows there running
  | @stopped index request thread worker outputs asks ask found phase
      good next there stopped =>
      have good := served index request found
      unfold Request.Good at good
      rw [phase] at good
      rcases good with ⟨asks, worker', engaged⟩
      have same := engaged.there
      rw [there] at same
      cases same
      have died : worker.status = .died := by
        have stays := engaged.stays
        cases status : worker.status with
        | running => exact (stopped status).elim
        | left => exact (stays status).elim
        | died => rfl
      exact served.finish found
        (.lost engaged.serves ⟨thread, worker, there, died, rfl⟩ (by simp))
  | wakeFailed found phase =>
      exact served.finish found (sound.wakeFailed found phase)
  | wakeMore found phase good more =>
      rcases sound.told found phase with
        ⟨asks, worker, ask, engaged, next, own | ⟨said, -⟩⟩
      · have same := engaged.good
        rw [good] at same
        cases same
        apply served.replace found
        exact ⟨_, worker,
          { engaged.rephase _ with
            done := engaged.done.more next own.symm
            more := by
              rw [List.length_append]
              exact more }⟩
      · cases said
  | wakeDone found phase good last =>
      exact served.finish found (sound.wakeDone found phase good last)
  | cancel found permitted => exact served.replace found trivial
  | giveUp found phase => exact served.replace found trivial
  | warm ensures => exact sound.ensures ensures
  | sweep now =>
      apply idle_keeps (fun threads =>
        AllServed engines start defaultId threads state.requests) _ _ _
        served
      intro threads thread worker served there
      apply served.set there
      refine fun index => ⟨rfl, rfl, rfl, fun ask number member => ?_⟩
      show _ ∈ (worker.jobs.send .idle).pending
      rw [Mailbox.pending_send]
      exact List.mem_append_left _ member
  | take there running =>
      apply served.set there
      refine fun index => ⟨rfl, rfl, rfl, fun ask number member => ?_⟩
      rwa [Mailbox.pending_take]
  | @serve thread worker ask resp there running hand =>
      rcases work_rest engines worker ask with
        ⟨path, loaded, status, -⟩
      exact sound.serve lawful there running hand path loaded status rfl
  | idle there running hand =>
      apply served.set there
      refine fun index => ⟨rfl, rfl, rfl, fun ask number member => ?_⟩
      rw [Mailbox.pending_of_hand hand] at member
      rcases List.mem_cons.mp member with same | later
      · cases same
      · exact later
  | leave there running finished alone =>
      exact sound.leave there running alone
  | die there running => exact sound.die there running

theorem defaultId_step (step : Step engines state event next) :
    next.defaultId = state.defaultId := by
  cases step with
  | hold found phase resolved ensures =>
      exact (Admits.ensures rfl ensures).2.2
  | warm ensures => exact (Admits.ensures rfl ensures).2.2
  | serve there running hand => exact (deliver_rest _ _ _).2.1
  | _ => rfl

theorem Sound.step (lawful : Lawful engines same fresh)
    (sound : Sound engines same fresh start defaultId state)
    (step : Step engines state event next) :
    Sound engines same fresh start defaultId next where
  configured := sound.configured.step step
  named := (defaultId_step step).trans sound.named
  threads := sound.threads.step lawful step
  leads := sound.leads.step sound.configured step
  once := sound.once.step step
  posted := sound.posted.step sound.once step
  served := sound.served_step lawful step

end

/-- A server begins without requests, threads and engines. -/
theorem sound_start {pool : ModelPool} (defaultId : Text) (parallel : Nat)
    (empty : pool.engines = ∅) :
    Sound engines same fresh pool defaultId
      (.start σ pool defaultId parallel) where
  configured := ⟨rfl, rfl, rfl, rfl, rfl⟩
  named := rfl
  threads := fun _ _ found => by cases found
  leads := fun id thread found => by
    change pool.engines.lookup id = some thread at found
    rw [empty] at found
    cases found
  once := ⟨fun _ => Nat.zero_le _, fun _ some => by cases some⟩
  posted := fun _ _ _ _ found => by cases found
  served := fun _ _ found => by cases found

/-! ## Every run -/

theorem engines_new {host : Host} {models : List (Text × Path)}
    {backend : BackendKind} {loras : List Path} {maxLoaded : Nat}
    {idleTimeout : Option Nat} {pool : ModelPool}
    (made :
      ModelPool.new host models backend loras maxLoaded idleTimeout =
        .ok pool) : pool.engines = ∅ := by
  unfold ModelPool.new at made
  cases registered : registerModels host models (∅, []) with
  | error error =>
      rw [registered] at made
      cases made
  | ok known =>
      rw [registered] at made
      cases made
      rfl

section

variable {host : Host} {models : List (Text × Path)}
  {backend : BackendKind} {loras : List Path} {maxLoaded : Nat}
  {idleTimeout : Option Nat} {pool : ModelPool}

theorem sound_run (lawful : Lawful engines same fresh)
    (made :
      ModelPool.new host models backend loras maxLoaded idleTimeout =
        .ok pool)
    (defaultId : Text) (parallel : Nat) (events : List Event) :
    Sound engines same fresh pool defaultId
      ((AppState.start σ pool defaultId parallel).run engines events) :=
  AppState.run_keeps
    (fun _ _ _ _ sound step => Sound.step lawful sound step)
    (sound_start defaultId parallel (engines_new made))

end

/-- Engines that answer with the cells that they find in their cache. -/
def cells : LocalEngine (Path × Nat) where
  load _ path _ _ := .ok (path, 0)
  generate engine _ :=
    (.ok [.text (engine.1 ++ List.replicate engine.2 '!')],
      (engine.1, engine.2 + 1))
  embed engine input := .ok [engine.1.length.toUInt32, input.length.toUInt32]
  clearKv engine := (engine.1, 0)
  onIdle engine := engine

theorem lawful_cells :
    Lawful cells (fun first second => first.1 = second.1)
      (fun engine => engine.2 = 0) where
  refl _ := rfl
  generated _ _ _ same := same
  cleared _ _ same := same
  idled _ _ same := same
  freshLoad _ _ _ _ _ loads := by
    cases loads
    rfl
  freshClear _ := rfl
  freshIdle _ clear := clear
  embed first second input same := by
    simp only [cells, same]
  generate first second request same clear clear' := by
    simp only [cells, same, clear, clear']

/-- A machine on which every model loads. -/
def easyMachine : Machine where
  resolveRequested _ _ := .ok .gguf
  fitCheckNoFit _ := .ok ()
  placementFor _ := .ok .cpu
  now := 0

/-- Two requests for one model, one after the other. -/
def twoRequests : List Event :=
  [.arrive none (.generation (.ok (.default false))),
    .arrive none (.generation (.ok (.default false))), .acquire 0,
    .ensure 0 easyMachine, .send 0, .take 0, .serve 0, .wake 0, .acquire 1,
    .ensure 1 easyMachine, .send 1, .take 0, .serve 0, .wake 1]

/--
In every run each job is sent at most once; what a running thread still has
to do is waited for by the request it is for, or its client has gone; and
whoever waits has that very job in the mailbox of a running thread.
-/
theorem jobs_kept {host : Host} {models : List (Text × Path)}
    {backend : BackendKind} {loras : List Path} {maxLoaded : Nat}
    {idleTimeout : Option Nat} {pool : ModelPool}
    (lawful : Lawful engines same fresh)
    (made :
      ModelPool.new host models backend loras maxLoaded idleTimeout =
        .ok pool)
    (defaultId : Text) (parallel : Nat) (events : List Event) :
    let server :=
      (AppState.start σ pool defaultId parallel).run engines events
    (∀ resp, times server.threads resp ≤ 1) ∧ Posted server ∧
      ∀ (index : Nat) (request : Request) (thread : Thread)
        (outputs : List Output),
        server.requests[index]? = some request →
          request.phase = .awaiting thread outputs none →
            ∃ (asks : List Ask) (ask : Ask) (worker : EngineThread σ),
              request.body.asks = .ok asks ∧
                asks[outputs.length]? = some ask ∧
                  server.threads[thread]? = some worker ∧
                    worker.status = .running ∧
                      EngineJob.ask ask ⟨index, outputs.length⟩ ∈
                        worker.jobs.pending := by
  intro server
  have sound : Sound engines same fresh pool defaultId server :=
    sound_run lawful made defaultId parallel events
  refine ⟨sound.once.single, sound.posted, ?_⟩
  intro index request thread outputs found phase
  have good := sound.served index request found
  unfold Request.Good at good
  rw [phase] at good
  rcases good with ⟨asks, worker, ask, engaged, next, running, member⟩
  exact ⟨asks, ask, worker, engaged.good, next, engaged.there, running,
    member⟩

theorem jobs_kept_twice :
    ∃ pool,
      smallPool = .ok pool ∧
        ∀ resp,
          times
            ((AppState.start (Path × Nat) pool "a".toList 1).run cells
              twoRequests).threads resp ≤ 1 :=
  ⟨_, rfl,
    (jobs_kept lawful_cells
      (rfl : ModelPool.new (easyHost 0 0) smallModels .auto [] 1 (some 0) =
        .ok _)
      "a".toList 1 twoRequests).1⟩

end Runa.App.Server
