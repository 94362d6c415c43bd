import Runa.App.Server

/-!
# What a step of the server can do

One relation says what any event may do to the state, with the guards under
which it happens; the invariants of the server are derived from it.
-/

namespace Runa.App.Server

open Runa.App.Pool
open Runa.App.PoolDaemon (evictFrom_rest lookup_evictFrom resolveId)
open Runa.Concurrent.Mailboxes
open Runa.Engine.Placements
open Runa.Stream.Utf8

variable {σ : Type} {engines : LocalEngine σ}

/-! ## Loading -/

/-- A pool starts a thread when it loads, and only then. -/
theorem load_eq (pool : ModelPool) (machine : Machine) (next : Thread)
    (id : Text) :
    pool.load (machine.host engines next) id =
      (startEngine pool machine engines id).map fun _ => next := by
  unfold ModelPool.load startEngine
  cases pool.specs.lookup id with
  | none => rfl
  | some path =>
      simp only [Machine.host, Except.bind, bind]
      cases machine.resolveRequested pool.backend path with
      | error error => rfl
      | ok kind =>
          cases kind with
          | auto => rfl
          | gguf =>
              simp only
              cases machine.fitCheckNoFit path with
              | error error => rfl
              | ok fits =>
                  simp only
                  cases machine.placementFor path with
                  | error error => rfl
                  | ok placement =>
                      simp only
                      cases engines.load machine.now path .gguf placement <;>
                        rfl
          | mistral =>
              simp only
              split_ifs
              · rfl
              · cases engines.load machine.now path .mistral .cpu <;> rfl

/-- A thread starts with the engine that its path gives. -/
theorem startEngine_ok {pool : ModelPool} {machine : Machine} {id : Text}
    {thread : EngineThread σ}
    (started : startEngine pool machine engines id = .ok thread) :
    pool.specs.lookup id = some thread.path ∧
      thread = .start thread.path thread.loaded ∧
        ∃ now kind placement,
          engines.load now thread.path kind placement =
            .ok thread.loaded := by
  unfold startEngine at started
  cases known : pool.specs.lookup id with
  | none =>
      rw [known] at started
      cases started
  | some path =>
      simp only [known, Except.bind, bind] at started
      cases resolved : machine.resolveRequested pool.backend path with
      | error error =>
          simp only [resolved] at started
          cases started
      | ok kind =>
          simp only [resolved] at started
          cases kind with
          | auto => cases started
          | gguf =>
              simp only at started
              split at started
              · cases started
              · split at started
                · cases started
                · rename_i placement _
                  cases loads : engines.load machine.now path .gguf placement
                  · rw [loads] at started
                    cases started
                  · rw [loads] at started
                    cases started
                    exact ⟨rfl, rfl, _, _, _, loads⟩
          | mistral =>
              simp only at started
              split_ifs at started with none
              cases loads : engines.load machine.now path .mistral .cpu
              · rw [loads] at started
                cases started
              · rw [loads] at started
                cases started
                exact ⟨rfl, rfl, _, _, _, loads⟩

/-- What asking the pool for an engine does. -/
inductive Ensures (engines : LocalEngine σ) (state : AppState σ)
    (machine : Machine) (id : Text) :
    Except Text Thread → AppState σ → Prop where
  | known {thread : Thread}
      (found : state.pool.engines.lookup id = some thread) :
      Ensures engines state machine id (.ok thread)
        { state with pool := state.pool.touchLru id machine.now }
  | failed (absent : state.pool.engines.lookup id = none) {error : Text}
      (fails : startEngine state.pool machine engines id = .error error) :
      Ensures engines state machine id (.error error) state
  | started (absent : state.pool.engines.lookup id = none)
      {thread : EngineThread σ}
      (starts : startEngine state.pool machine engines id = .ok thread) :
      Ensures engines state machine id (.ok state.threads.length)
        { state with
          pool :=
            (state.pool.loaded id state.threads.length
              machine.now).evictIfNeeded
          threads := state.threads ++ [thread] }

variable (engines) in
theorem AppState.ensures (state : AppState σ) (machine : Machine)
    (id : Text) :
    Ensures engines state machine id
      (state.ensureEngine engines machine id).1
      (state.ensureEngine engines machine id).2 := by
  unfold AppState.ensureEngine ModelPool.ensureEngine
  cases found : state.pool.engines.lookup id with
  | some thread => exact .known found
  | none =>
      simp only [load_eq]
      cases starts : startEngine state.pool machine engines id with
      | error error => exact .failed found starts
      | ok thread => exact .started found starts

/-! ## Steps -/

/-- What the state may be after one event. -/
inductive Step (engines : LocalEngine σ) (state : AppState σ) :
    Event → AppState σ → Prop where
  | stay (event : Event) : Step engines state event state
  | arrive (model : Option Text) (body : Body) :
      Step engines state (.arrive model body)
        { state with
          requests := state.requests ++ [⟨model, body, .waiting⟩] }
  | refuse {index : Nat} {request : Request} {error : Text}
      (found : state.requests[index]? = some request)
      (phase : request.phase = .waiting)
      (bad : request.body.asks = .error error) :
      Step engines state (.acquire index)
        (state.setPhase index request (.answered (.error (400, error))))
  | acquire {index permits : Nat} {request : Request} {asks : List Ask}
      (found : state.requests[index]? = some request)
      (phase : request.phase = .waiting)
      (good : request.body.asks = .ok asks)
      (permit : state.permits = permits + 1) :
      Step engines state (.acquire index)
        { state.setPhase index request .admitted with permits := permits }
  | unknown {index : Nat} {request : Request} {error : Text}
      {machine : Machine}
      (found : state.requests[index]? = some request)
      (phase : request.phase = .admitted)
      (missing :
        resolveId state.pool (modelId state.defaultId request.model) =
          .error error) :
      Step engines state (.ensure index machine)
        (state.finish index request
          (.answered (.error (errorStatus error, error))))
  | unloaded {index : Nat} {request : Request} {error id : Text}
      {machine : Machine}
      (found : state.requests[index]? = some request)
      (phase : request.phase = .admitted)
      (resolved :
        resolveId state.pool (modelId state.defaultId request.model) =
          .ok id)
      (fails : startEngine state.pool machine engines id = .error error) :
      Step engines state (.ensure index machine)
        (state.finish index request
          (.answered (.error (errorStatus error, error))))
  | hold {index : Nat} {request : Request} {id : Text} {machine : Machine}
      {thread : Thread} {ensured : AppState σ}
      (found : state.requests[index]? = some request)
      (phase : request.phase = .admitted)
      (resolved :
        resolveId state.pool (modelId state.defaultId request.model) =
          .ok id)
      (ensures : Ensures engines state machine id (.ok thread) ensured) :
      Step engines state (.ensure index machine)
        (ensured.setPhase index request (.holding thread []))
  | send {index : Nat} {request : Request} {thread : Thread}
      {worker : EngineThread σ} {outputs : List Output} {asks : List Ask}
      {ask : Ask}
      (found : state.requests[index]? = some request)
      (phase : request.phase = .holding thread outputs)
      (good : request.body.asks = .ok asks)
      (next : asks[outputs.length]? = some ask)
      (there : state.threads[thread]? = some worker)
      (running : worker.status = .running) :
      Step engines state (.send index)
        ((state.setThread thread
          (worker.send (.ask ask ⟨index, outputs.length⟩))).setPhase index
            request (.awaiting thread outputs none))
  | stopped {index : Nat} {request : Request} {thread : Thread}
      {worker : EngineThread σ} {outputs : List Output} {asks : List Ask}
      {ask : Ask}
      (found : state.requests[index]? = some request)
      (phase : request.phase = .holding thread outputs)
      (good : request.body.asks = .ok asks)
      (next : asks[outputs.length]? = some ask)
      (there : state.threads[thread]? = some worker)
      (stopped : worker.status ≠ .running) :
      Step engines state (.send index)
        (state.finish index request
          (.answered (.error (500, "engine thread stopped".toList))))
  | wakeFailed {index : Nat} {request : Request} {thread : Thread}
      {outputs : List Output} {error : Text}
      (found : state.requests[index]? = some request)
      (phase :
        request.phase = .awaiting thread outputs (some (.error error))) :
      Step engines state (.wake index)
        (state.finish index request (.answered (.error (500, error))))
  | wakeMore {index : Nat} {request : Request} {thread : Thread}
      {outputs : List Output} {asks : List Ask} {output : Output}
      (found : state.requests[index]? = some request)
      (phase :
        request.phase = .awaiting thread outputs (some (.ok output)))
      (good : request.body.asks = .ok asks)
      (more : outputs.length + 1 < asks.length) :
      Step engines state (.wake index)
        (state.setPhase index request
          (.holding thread (outputs ++ [output])))
  | wakeDone {index : Nat} {request : Request} {thread : Thread}
      {outputs : List Output} {asks : List Ask} {output : Output}
      (found : state.requests[index]? = some request)
      (phase :
        request.phase = .awaiting thread outputs (some (.ok output)))
      (good : request.body.asks = .ok asks)
      (last : asks.length ≤ outputs.length + 1) :
      Step engines state (.wake index)
        (state.finish index request
          (.answered (.ok (outputs ++ [output]))))
  | cancel {index : Nat} {request : Request}
      (found : state.requests[index]? = some request)
      (permitted : request.phase.permitted = true) :
      Step engines state (.cancel index) (state.finish index request .gone)
  | giveUp {index : Nat} {request : Request}
      (found : state.requests[index]? = some request)
      (phase : request.phase = .waiting) :
      Step engines state (.cancel index) (state.setPhase index request .gone)
  | warm {id : Text} {machine : Machine} {result : Except Text Thread}
      {ensured : AppState σ}
      (ensures : Ensures engines state machine id result ensured) :
      Step engines state (.warm id machine) ensured
  | sweep (now : Nat) : Step engines state (.sweep now) (state.sweep now)
  | take {thread : Thread} {worker : EngineThread σ}
      (there : state.threads[thread]? = some worker)
      (running : worker.status = .running) :
      Step engines state (.take thread)
        (state.setThread thread { worker with jobs := worker.jobs.take })
  | serve {thread : Thread} {worker : EngineThread σ} {ask : Ask}
      {resp : Resp}
      (there : state.threads[thread]? = some worker)
      (running : worker.status = .running)
      (hand : worker.jobs.hand = some (.ask ask resp)) :
      Step engines state (.serve thread)
        ((state.setThread thread
          { (worker.work engines ask).2 with
            jobs := worker.jobs.finish }).deliver resp
              (worker.work engines ask).1)
  | idle {thread : Thread} {worker : EngineThread σ}
      (there : state.threads[thread]? = some worker)
      (running : worker.status = .running)
      (hand : worker.jobs.hand = some .idle) :
      Step engines state (.serve thread)
        (state.setThread thread
          { worker with
            engine := engines.onIdle worker.engine
            jobs := worker.jobs.finish })
  | leave {thread : Thread} {worker : EngineThread σ}
      (there : state.threads[thread]? = some worker)
      (running : worker.status = .running)
      (finished : worker.jobs.pending = [])
      (alone : state.referenced thread = false) :
      Step engines state (.leave thread)
        (state.setThread thread { worker with status := .left })
  | die {thread : Thread} {worker : EngineThread σ}
      (there : state.threads[thread]? = some worker)
      (running : worker.status = .running) :
      Step engines state (.die thread) (state.die thread worker)

section

variable (state : AppState σ) {index : Nat} {request : Request}
  (found : state.requests[index]? = some request)
include found

theorem step_admit :
    Step engines state (.acquire index)
      (state.acquireParallel index request) := by
  unfold AppState.acquireParallel
  split
  · rename_i permits error phase permit bad
    exact .refuse found phase bad
  · rename_i permits asks phase permit good
    exact .acquire found phase good permit
  · exact .stay _

variable (engines) in
theorem step_ensure (machine : Machine) :
    Step engines state (.ensure index machine)
      (state.ensure engines index request machine) := by
  unfold AppState.ensure
  split
  · rename_i phase
    unfold AppState.withEngine
    cases resolved :
        resolveId state.pool (modelId state.defaultId request.model) with
    | error error => exact .unknown found phase resolved
    | ok id =>
        have ensures := state.ensures engines machine id
        simp only
        generalize state.ensureEngine engines machine id = ensured
          at ensures ⊢
        rcases ensured with ⟨result, next⟩
        cases result with
        | ok thread => exact .hold found phase resolved ensures
        | error error =>
            cases ensures with
            | failed absent fails =>
                exact .unloaded found phase resolved fails
  · exact .stay _

theorem step_send :
    Step engines state (.send index) (state.send index request) := by
  unfold AppState.send
  split
  · rename_i thread outputs asks phase good
    split
    · rename_i ask worker next there
      split_ifs with running
      · exact .send found phase good next there running
      · exact .stopped found phase good next there running
    · exact .stay _
  · exact .stay _

theorem step_wake :
    Step engines state (.wake index) (state.wake index request) := by
  unfold AppState.wake
  split
  · rename_i phase good
    exact .wakeFailed found phase
  · rename_i thread outputs output asks phase good
    split_ifs with more
    · exact .wakeMore found phase good more
    · exact .wakeDone found phase good (Nat.le_of_not_lt more)
  · exact .stay _

theorem step_cancel :
    Step engines state (.cancel index) (state.cancel index request) := by
  unfold AppState.cancel
  cases phase : request.phase with
  | waiting => exact .giveUp found phase
  | admitted => exact .cancel found (by rw [phase]; rfl)
  | holding thread outputs => exact .cancel found (by rw [phase]; rfl)
  | awaiting thread outputs reply =>
      exact .cancel found (by rw [phase]; rfl)
  | answered reply => exact .stay _
  | gone => exact .stay _

end

section

variable (state : AppState σ) {thread : Thread} {worker : EngineThread σ}
  (there : state.threads[thread]? = some worker)
  (running : worker.status = .running)
include there running

theorem step_serve :
    Step engines state (.serve thread)
      (state.serve engines thread worker) := by
  unfold AppState.serve
  split
  · exact .stay _
  · rename_i ask resp hand
    exact .serve there running hand
  · rename_i hand
    exact .idle there running hand

theorem step_leave :
    Step engines state (.leave thread) (state.leave thread worker) := by
  unfold AppState.leave
  split_ifs with done
  · exact .leave there running done.1 done.2
  · exact .stay _

end

theorem step_onRequest (state : AppState σ) (index : Nat) {event : Event}
    {step : Request → AppState σ}
    (steps : ∀ request, state.requests[index]? = some request →
      Step engines state event (step request)) :
    Step engines state event (state.onRequest index step) := by
  unfold AppState.onRequest
  split
  · exact steps _ ‹_›
  · exact .stay _

theorem step_onThread (state : AppState σ) (thread : Thread)
    {event : Event} {step : EngineThread σ → AppState σ}
    (steps : ∀ worker, state.threads[thread]? = some worker →
      worker.status = .running →
        Step engines state event (step worker)) :
    Step engines state event (state.onThread thread step) := by
  unfold AppState.onThread
  split
  · split_ifs with running
    · exact steps _ ‹_› running
    · exact .stay _
  · exact .stay _

/-- Any event does what the relation says. -/
theorem AppState.step (state : AppState σ) (event : Event) :
    Step engines state event (state.after engines event) := by
  cases event with
  | arrive model body => exact .arrive model body
  | acquire index =>
      exact step_onRequest state index fun _ found => step_admit state found
  | ensure index machine =>
      exact step_onRequest state index
        fun _ found => step_ensure engines state found machine
  | send index =>
      exact step_onRequest state index fun _ found => step_send state found
  | wake index =>
      exact step_onRequest state index fun _ found => step_wake state found
  | cancel index =>
      exact step_onRequest state index
        fun _ found => step_cancel state found
  | warm id machine => exact .warm (state.ensures engines machine id)
  | sweep now => exact .sweep now
  | take thread =>
      exact step_onThread state thread
        fun _ there running => .take there running
  | serve thread =>
      exact step_onThread state thread
        fun _ there running => step_serve state there running
  | leave thread =>
      exact step_onThread state thread
        fun _ there running => step_leave state there running
  | die thread =>
      exact step_onThread state thread
        fun _ there running => .die there running

/-- What every step keeps holds after every run. -/
theorem AppState.run_keeps {keeps : AppState σ → Prop}
    {events : List Event}
    (step : ∀ state next, ∀ event ∈ events, keeps state →
      Step engines state event next → keeps next)
    {state : AppState σ} (begins : keeps state) :
    keeps (state.run engines events) := by
  induction events generalizing state with
  | nil => exact begins
  | cons event events ih =>
      apply ih
      · exact fun state next event member =>
          step state next event (List.mem_cons_of_mem _ member)
      · exact step _ _ event List.mem_cons_self begins (state.step event)

end Runa.App.Server
