import Runa.App.ServerAnswers

/-!
# Ends of the server

How the pool fares among its threads as long as none of them dies, how many
requests are let in at a time, and why every request comes to an end: each
step that the server can take by itself is one step less to take.
-/

namespace Runa.App.Server

open Runa.App.Pool
open Runa.Concurrent.Mailboxes
open Runa.Queue.Recency
open Runa.Stream.Utf8

variable {σ : Type} {engines : LocalEngine σ} {state next : AppState σ}
  {event : Event}

/-! ## Runs in which no thread dies -/

def Alive (threads : List (EngineThread σ)) : Prop :=
  ∀ (thread : Thread) (worker : EngineThread σ),
    threads[thread]? = some worker → worker.status ≠ .died

/-- What the pool keeps as long as no thread dies. -/
structure Undisturbed (start : ModelPool) (state : AppState σ) : Prop where
  configured : Configured start state.pool
  leads : PoolLeads start state.pool state.threads
  alive : Alive state.threads
  kept : ∃ history, Kept history state.pool

section

variable {start pool : ModelPool} {threads : List (EngineThread σ)}
  {thread : Thread} {worker replaced : EngineThread σ}

theorem Alive.set (alive : Alive threads)
    (there : threads[thread]? = some worker)
    (status : worker.status ≠ .died → replaced.status ≠ .died) :
    Alive (threads.set thread replaced) := by
  intro other found
  rw [getElem?_set_of_some there]
  split_ifs
  · rintro ⟨⟩
    exact status (alive _ _ there)
  · exact alive other found

theorem Alive.ensures {machine : Machine} {id : Text}
    {result : Except Text Thread} (alive : Alive state.threads)
    (ensures : Ensures engines state machine id result next) :
    Alive next.threads := by
  cases ensures with
  | known found => exact alive
  | failed absent fails => exact alive
  | @started absent fresh starts =>
      intro thread worker there
      rcases List.getElem?_eq_some_iff.mp there with ⟨short, equal⟩
      rcases List.mem_append.mp (List.getElem_mem short) with old | new
      · rw [equal] at old
        rcases List.mem_iff_getElem?.mp old with ⟨index, known⟩
        exact alive index worker known
      · rw [equal, List.mem_singleton] at new
        rw [new, (startEngine_ok starts).2.1]
        simp [EngineThread.start]

theorem Alive.step (alive : Alive state.threads)
    (step : Step engines state event next)
    (lives : ∀ thread, event ≠ .die thread) : Alive next.threads := by
  cases step with
  | hold found phase resolved ensures =>
      have kept := alive.ensures ensures
      exact kept
  | warm ensures => exact alive.ensures ensures
  | send found phase good follows there running =>
      exact alive.set there id
  | sweep now =>
      apply idle_keeps Alive _ _ _ alive
      exact fun threads thread worker alive there => alive.set there id
  | take there running => exact alive.set there id
  | @serve thread worker ask resp there running hand =>
      rw [(deliver_rest _ _ _).2.2.1]
      refine alive.set there fun lives => ?_
      show (worker.work engines ask).2.status ≠ _
      rwa [(work_rest engines worker ask).2.2.1]
  | idle there running hand => exact alive.set there id
  | leave there running finished alone =>
      refine alive.set there fun _ => ?_
      simp
  | die there running => exact (lives _ rfl).elim
  | _ => exact alive

/-- The threads of the engines in the pool are running. -/
theorem PoolLeads.running (leads : PoolLeads start pool threads)
    (alive : Alive threads) {id : Text}
    (found : pool.engines.lookup id = some thread) :
    ∃ worker : EngineThread σ, threads[thread]? = some worker ∧
      worker.status = .running := by
  rcases leads id thread found with ⟨worker, there, stays, -⟩
  refine ⟨worker, there, ?_⟩
  have lives := alive thread worker there
  cases status : worker.status with
  | running => rfl
  | left => exact (stays status).elim
  | died => exact (lives status).elim

/-- A sweep then finds every thread of the pool. -/
theorem Undisturbed.findsAlive (undisturbed : Undisturbed start state)
    (now : Nat) :
    FindsAlive ⟨state.pool, state.stopped⟩ (.idleSweep now) := by
  intro id due thread found stopped
  rcases undisturbed.leads.running undisturbed.alive found with
    ⟨worker, there, running⟩
  have told := (List.mem_filter.mp stopped).2
  rw [there] at told
  simp [running] at told

theorem kept_ensures {machine : Machine} {id : Text}
    {result : Except Text Thread} {history : List Text}
    (kept : Kept history state.pool)
    (ensures : Ensures engines state machine id result next) :
    ∃ later, Kept later next.pool := by
  cases ensures with
  | known found =>
      have loaded : id ∈ state.pool.engines := by
        rw [← AList.lookup_isSome, found]
        rfl
      exact ⟨_, kept.touchLru loaded machine.now⟩
  | failed absent fails => exact ⟨history, kept⟩
  | started absent starts =>
      have absent := AList.lookup_eq_none.mp absent
      exact ⟨_, kept.after_loads absent
        (kept.loads absent machine.now)⟩

theorem Undisturbed.step (undisturbed : Undisturbed start state)
    (step : Step engines state event next)
    (lives : ∀ thread, event ≠ .die thread) :
    Undisturbed start next where
  configured := undisturbed.configured.step step
  leads := undisturbed.leads.step undisturbed.configured step
  alive := undisturbed.alive.step step lives
  kept := by
    rcases undisturbed.kept with ⟨history, kept⟩
    cases step with
    | hold found phase resolved ensures =>
        have later := kept_ensures kept ensures
        exact later
    | warm ensures => exact kept_ensures kept ensures
    | sweep now =>
        exact ⟨history, kept.idleSweep (undisturbed.findsAlive now)⟩
    | serve there running hand =>
        rw [(deliver_rest _ _ _).1]
        exact ⟨history, kept⟩
    | _ => exact ⟨history, kept⟩

end

theorem sum_permits (requests : List Request) :
    (requests.map Request.permits).sum =
      requests.countP fun request => request.phase.permitted := by
  induction requests with
  | nil => rfl
  | cons request requests ih =>
      rw [List.map_cons, List.sum_cons, ih, List.countP_cons,
        Request.permits, Nat.add_comm]

/--
Of all requests, never more have passed the semaphore and not ended than it
has permits, and every permit comes back, also from clients that hang up.
-/
theorem permits_conserved (engines : LocalEngine σ) (pool : ModelPool)
    (defaultId : Text) (parallel : Nat) (events : List Event) :
    let server :=
      (AppState.start σ pool defaultId parallel).run engines events
    server.permits +
        server.requests.countP (fun request => request.phase.permitted) =
      parallel := by
  intro server
  have admits : Admits parallel server :=
    AppState.run_keeps (fun _ _ _ _ admits step => Admits.step admits step)
      (Nat.add_zero parallel)
  rw [← sum_permits]
  exact admits

/-! ## The work that is left -/

/-- The steps that handlers and threads take by themselves. -/
def Event.works : Event → Bool
  | .acquire _ | .ensure _ _ | .send _ | .wake _ | .take _ | .serve _ => true
  | .arrive _ _ | .cancel _ | .warm _ _ | .sweep _ | .leave _ | .die _ =>
      false

def Body.jobs (body : Body) : Nat :=
  match body.asks with
  | .ok asks => asks.length
  | .error _ => 0

/-- Steps that a handler has to take, and threads for its later jobs. -/
def Request.weight (request : Request) : Nat :=
  match request.phase with
  | .waiting => 4 * request.body.jobs + 2
  | .admitted => 4 * request.body.jobs + 1
  | .holding _ outputs => 4 * (request.body.jobs - outputs.length)
  | .awaiting _ outputs _ =>
      4 * (request.body.jobs - outputs.length - 1) + 1
  | .answered _ | .gone => 0

def EngineThread.weight (worker : EngineThread σ) : Nat :=
  worker.jobs.load

def AppState.weight (state : AppState σ) : Nat :=
  (state.requests.map Request.weight).sum +
    (state.threads.map EngineThread.weight).sum

section

variable {index : Nat} {request : Request} {phase : Phase}
  {thread : Thread} {worker replaced : EngineThread σ}

variable (state phase) in
theorem weight_setPhase (found : state.requests[index]? = some request) :
    (state.setPhase index request phase).weight + request.weight =
      state.weight + Request.weight { request with phase := phase } := by
  have total :=
    sum_map_set Request.weight found { request with phase := phase }
  simp only [AppState.weight, AppState.setPhase]
  omega

variable (replaced) in
theorem weight_setThread (there : state.threads[thread]? = some worker) :
    (state.setThread thread replaced).weight + worker.weight =
      state.weight + replaced.weight := by
  have total := sum_map_set EngineThread.weight there replaced
  simp only [AppState.weight, AppState.setThread]
  omega

/-- What is told weighs nothing. -/
theorem weight_deliver (state : AppState σ) (resp : Resp)
    (reply : Except Text Output) :
    (state.deliver resp reply).weight = state.weight := by
  rcases deliver_cases state resp reply with
    ⟨same, -⟩ | ⟨request, thread, outputs, found, phase, -, same⟩
  · rw [same]
  · have total := weight_setPhase state
      (.awaiting thread outputs (some reply)) found
    have equal :
        Request.weight
            { request with
              phase := .awaiting thread outputs (some reply) } =
          request.weight := by
      rw [Request.weight, Request.weight, phase]
    rw [same]
    omega

end

/-! ## Every request comes to an end -/

section

variable {index : Nat} {request : Request} {thread : Thread}
  {worker : EngineThread σ} {outputs : List Output}

/-- A request in another phase makes another state. -/
theorem ne_of_phase (found : state.requests[index]? = some request)
    {later : Request} (after : next.requests[index]? = some later)
    (moved : later.phase ≠ request.phase) : next ≠ state := by
  rintro rfl
  rw [found] at after
  cases after
  exact moved rfl

theorem setPhase_ne (found : state.requests[index]? = some request)
    (ensured : AppState σ) (same : ensured.requests = state.requests)
    {phase : Phase} (moved : phase ≠ request.phase) :
    ensured.setPhase index request phase ≠ state := by
  rw [← same] at found
  rcases requests_setPhase _ phase found found with
    ⟨later, after, ⟨-, -, rfl⟩ | ⟨other, -⟩⟩
  · rw [same] at found
    exact ne_of_phase found after moved
  · exact (other rfl).elim

theorem finish_ne (found : state.requests[index]? = some request)
    {phase : Phase} (moved : phase ≠ request.phase) :
    state.finish index request phase ≠ state := by
  rcases requests_setPhase _ phase found found with
    ⟨later, after, ⟨-, -, rfl⟩ | ⟨other, -⟩⟩
  · have finished :
        (state.finish index request phase).requests[index]? =
          some { request with phase := phase } := after
    exact ne_of_phase found finished moved
  · exact (other rfl).elim

theorem after_onRequest (found : state.requests[index]? = some request)
    (step : Request → AppState σ) :
    state.onRequest index step = step request := by
  rw [AppState.onRequest, found]

theorem after_onThread (there : state.threads[thread]? = some worker)
    (running : worker.status = .running)
    (step : EngineThread σ → AppState σ) :
    state.onThread thread step = step worker := by
  rw [AppState.onThread, there]
  exact if_pos running

theorem ensure_moves (found : state.requests[index]? = some request)
    (phase : request.phase = .admitted) (machine : Machine) :
    state.after engines (.ensure index machine) ≠ state := by
  show (state.onRequest index fun request =>
    state.ensure engines index request machine) ≠ state
  rw [after_onRequest found]
  have step := step_ensure engines state found machine
  intro same
  unfold AppState.ensure at same
  rw [phase] at same
  simp only at same
  unfold AppState.withEngine at same
  cases resolved :
      PoolDaemon.resolveId state.pool
        (modelId state.defaultId request.model) with
  | error error =>
      simp only [resolved] at same
      apply finish_ne found _ same
      rw [phase]
      simp
  | ok id =>
      simp only [resolved] at same
      have ensures := state.ensures engines machine id
      generalize state.ensureEngine engines machine id = ensured
        at ensures same
      rcases ensured with ⟨result, after⟩
      have equal := (Admits.ensures rfl ensures).2.1
      cases result with
      | ok thread =>
          apply setPhase_ne found after equal _ same
          rw [phase]
          simp
      | error error =>
          cases ensures with
          | failed absent fails =>
              apply finish_ne found _ same
              rw [phase]
              simp

theorem send_moves (found : state.requests[index]? = some request)
    (phase : request.phase = .holding thread outputs) {asks : List Ask}
    (good : request.body.asks = .ok asks)
    (more : outputs.length < asks.length)
    (there : state.threads[thread]? = some worker) :
    state.after engines (.send index) ≠ state := by
  show state.onRequest index (state.send index) ≠ state
  rw [after_onRequest found]
  simp only [AppState.send, phase, good, there,
    List.getElem?_eq_getElem more]
  split_ifs
  · apply setPhase_ne found (state.setThread _ _) rfl
    rw [phase]
    simp
  · apply finish_ne found
    rw [phase]
    simp

theorem wake_moves (found : state.requests[index]? = some request)
    {reply : Except Text Output}
    (phase : request.phase = .awaiting thread outputs (some reply))
    {asks : List Ask} (good : request.body.asks = .ok asks) :
    state.after engines (.wake index) ≠ state := by
  show state.onRequest index (state.wake index) ≠ state
  rw [after_onRequest found]
  cases reply with
  | error error =>
      simp only [AppState.wake, phase, good]
      apply finish_ne found
      rw [phase]
      simp
  | ok output =>
      simp only [AppState.wake, phase, good]
      split_ifs
      · apply setPhase_ne found state rfl
        rw [phase]
        simp
      · apply finish_ne found
        rw [phase]
        simp

variable (engines) in
/-- A running thread with something to do does it. -/
theorem thread_moves (there : state.threads[thread]? = some worker)
    (running : worker.status = .running)
    (waits : worker.jobs.pending ≠ []) :
    state.after engines (.take thread) ≠ state ∨
      state.after engines (.serve thread) ≠ state := by
  have heavier : ∀ event,
      (state.after engines event).weight < state.weight →
        state.after engines event ≠ state := by
    intro event less same
    rw [same] at less
    exact Nat.lt_irrefl _ less
  cases hand : worker.jobs.hand with
  | none =>
      cases queue : worker.jobs.queue with
      | nil =>
          rw [Mailbox.pending, hand, queue] at waits
          exact (waits rfl).elim
      | cons job rest =>
          left
          apply heavier
          show (state.onThread thread fun worker =>
            state.setThread thread
              { worker with jobs := worker.jobs.take }).weight < _
          rw [after_onThread there running]
          have total := weight_setThread
            { worker with jobs := worker.jobs.take } there
          have less := Mailbox.load_take hand queue
          simp only [EngineThread.weight] at total
          omega
  | some job =>
      right
      apply heavier
      show (state.onThread thread (state.serve engines thread)).weight < _
      rw [after_onThread there running]
      have less := Mailbox.load_finish hand
      unfold AppState.serve
      rw [hand]
      cases job with
      | idle =>
          have total := weight_setThread
            { worker with
              engine := engines.onIdle worker.engine
              jobs := worker.jobs.finish } there
          simp only [EngineThread.weight] at total
          simp only
          omega
      | ask ask resp =>
          have total := weight_setThread
            { (worker.work engines ask).2 with
              jobs := worker.jobs.finish } there
          simp only [EngineThread.weight] at total
          simp only [weight_deliver]
          omega

end

section

variable {same : σ → σ → Prop} {fresh : σ → Prop} {start : ModelPool}
  {defaultId : Text} {index : Nat} {request : Request}

/-- A request with a permit never keeps everything at a standstill. -/
theorem Sound.moves
    (sound : Sound engines same fresh start defaultId state)
    (found : state.requests[index]? = some request)
    (permitted : request.phase.permitted = true) :
    ∃ event, event.works = true ∧ state.after engines event ≠ state := by
  have good := sound.served index request found
  unfold Request.Good at good
  cases phase : request.phase with
  | admitted =>
      exact ⟨.ensure index easyMachine, rfl,
        ensure_moves found phase easyMachine⟩
  | holding thread outputs =>
      rw [phase] at good
      rcases good with ⟨asks, worker, engaged⟩
      exact ⟨.send index, rfl,
        send_moves found phase engaged.good engaged.more engaged.there⟩
  | awaiting thread outputs reply =>
      rw [phase] at good
      rcases good with ⟨asks, worker, ask, engaged, next, told⟩
      cases reply with
      | some reply =>
          exact ⟨.wake index, rfl, wake_moves found phase engaged.good⟩
      | none =>
          have waits : worker.jobs.pending ≠ [] := by
            intro empty
            have member := told.2
            rw [empty] at member
            cases member
          rcases thread_moves engines engaged.there told.1
              waits with takes | serves
          · exact ⟨.take thread, rfl, takes⟩
          · exact ⟨.serve thread, rfl, serves⟩
  | waiting | answered _ | gone => rw [phase] at permitted; cases permitted

end

end Runa.App.Server
