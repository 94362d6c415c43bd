import Runa.App.PoolDaemon
import Runa.Concurrent.Mailboxes

/-!
# The server

The embedding of `acquire_parallel`, `with_engine`, `generate_events`,
`embed_vector` and of what `chat_completions`, `anthropic_messages` and
`embeddings` do with them, of `runa/src/serve.rs`, and of `spawn_engine`,
`warm_up` and `idle_tick` of `pool.rs`.  Handlers, engine threads and the
tasks of the runtime take their steps in any order; clients come, hang up,
and threads may die.

What is asked of an engine is a parameter.  Every thread remembers the engine
it started with, and every mailbox what went through it, which the program
does not record.
-/

namespace Runa.App.Server

open Runa.App.Pool
open Runa.App.PoolDaemon (resolveId)
open Runa.Concurrent.Mailboxes
open Runa.Engine.Generate
open Runa.Engine.Placements
open Runa.Engine.Requests
open Runa.Stream.Utf8

/-! ## Engines -/

/-- `LocalEngine`, with the error of `catch_job` where it panics.  What a
path loads may change with the time. -/
structure LocalEngine (σ : Type) where
  load : Nat → Path → BackendKind → Placement → Except Text σ
  generate : σ → GenerateRequest → Except Text (List GenEvent) × σ
  /-- an `f32` is given by its bits -/
  embed : σ → Text → Except Text (List UInt32)
  clearKv : σ → σ
  onIdle : σ → σ

/-- What a handler wants of an engine. -/
inductive Ask where
  | generate (request : GenerateRequest)
  | embed (input : Text)

inductive Output where
  | events (events : List GenEvent)
  | vector (values : List UInt32)

/-- Where an answer goes: a request, and which of its jobs. -/
structure Resp where
  request : Nat
  index : Nat
deriving DecidableEq

inductive EngineJob where
  | ask (ask : Ask) (resp : Resp)
  | idle

def EngineJob.resp : EngineJob → Option Resp
  | .ask _ resp => some resp
  | .idle => none

/-- What an engine answers that has just been loaded. -/
def LocalEngine.answer {σ : Type} (engines : LocalEngine σ) (engine : σ) :
    Ask → Except Text Output
  | .generate request => (engines.generate engine request).1.map .events
  | .embed input => (engines.embed engine input).map .vector

/-! ## Engine threads -/

inductive Status where
  | running
  /-- its channel was closed -/
  | left
  | died
deriving DecidableEq

structure EngineThread (σ : Type) where
  path : Path
  loaded : σ
  engine : σ
  used : Bool
  jobs : Mailbox EngineJob
  status : Status

namespace EngineThread

variable {σ : Type}

def start (path : Path) (engine : σ) : EngineThread σ where
  path := path
  loaded := engine
  engine := engine
  used := false
  jobs := .empty
  status := .running

def send (thread : EngineThread σ) (job : EngineJob) : EngineThread σ :=
  { thread with jobs := thread.jobs.send job }

/-- The job in hand, as the loop of `spawn_engine` does it. -/
def work (engines : LocalEngine σ) (thread : EngineThread σ) :
    Ask → Except Text Output × EngineThread σ
  | .generate request =>
      let cleared :=
        if thread.used then engines.clearKv thread.engine
        else thread.engine
      let generation := engines.generate cleared request
      (generation.1.map .events,
        { thread with engine := generation.2, used := true })
  | .embed input =>
      ((engines.embed thread.engine input).map .vector, thread)

end EngineThread

/-! ## Requests -/

/-- What the handlers read from a body: a generation, if the body is valid,
or the texts to embed. -/
inductive Body where
  | generation (request : Except Text GenerateRequest)
  | embeddings (inputs : List Text)

def Body.asks : Body → Except Text (List Ask)
  | .generation request => request.map fun request => [.generate request]
  | .embeddings [] => .error "input must be non-empty".toList
  | .embeddings inputs => .ok (inputs.map .embed)

/-- A status and a message, or one output for each job. -/
abbrev Reply := Except (Nat × Text) (List Output)

/-- Where the handler of a request stands. -/
inductive Phase where
  | waiting
  | admitted
  | holding (thread : Thread) (outputs : List Output)
  | awaiting (thread : Thread) (outputs : List Output)
      (reply : Option (Except Text Output))
  | answered (reply : Reply)
  /-- the client hung up -/
  | gone

/-- The handler has a permit. -/
def Phase.permitted : Phase → Bool
  | .admitted | .holding _ _ | .awaiting _ _ _ => true
  | .waiting | .answered _ | .gone => false

/-- The thread to whose channel the handler has an end. -/
def Phase.sender : Phase → Option Thread
  | .holding thread _ | .awaiting thread _ _ => some thread
  | .waiting | .admitted | .answered _ | .gone => none

/-- The handler has come to its end. -/
def Phase.ended : Phase → Bool
  | .answered _ | .gone => true
  | .waiting | .admitted | .holding _ _ | .awaiting _ _ _ => false

structure Request where
  model : Option Text
  body : Body
  phase : Phase

/-- What is left of a channel whose thread died. -/
def Phase.dropped (thread : Thread) : Phase → Phase
  | .awaiting other outputs none =>
      if other = thread then
        .awaiting other outputs (some (.error "channel closed".toList))
      else .awaiting other outputs none
  | phase => phase

/-! ## The server -/

/-- `AppState`, with the tasks and the threads of the process. -/
structure AppState (σ : Type) where
  pool : ModelPool
  defaultId : Text
  threads : List (EngineThread σ)
  permits : Nat
  requests : List Request

def AppState.start (σ : Type) (pool : ModelPool) (defaultId : Text)
    (parallel : Nat) : AppState σ where
  pool := pool
  defaultId := defaultId
  threads := []
  permits := parallel
  requests := []

/-- What the pool asks of the machine when a model is loaded. -/
structure Machine where
  resolveRequested : BackendKind → Path → Except Text BackendKind
  fitCheckNoFit : Path → Except Text Unit
  placementFor : Path → Except Text Placement
  now : Nat

def Machine.host {σ : Type} (machine : Machine) (engines : LocalEngine σ)
    (next : Thread) : Host where
  isModel _ := true
  resolveRequested := machine.resolveRequested
  fitCheckNoFit := machine.fitCheckNoFit
  placementFor := machine.placementFor
  spawnEngine path kind placement :=
    (engines.load machine.now path kind placement).map fun _ => next
  now := machine.now

/-- The thread that `load` starts. -/
def startEngine {σ : Type} (pool : ModelPool) (machine : Machine)
    (engines : LocalEngine σ) (id : Text) :
    Except Text (EngineThread σ) := do
  let path ←
    match pool.specs.lookup id with
    | some path => .ok path
    | none => .error ("model ".toList ++ id ++ " not found".toList)
  let kind ← machine.resolveRequested pool.backend path
  match kind with
  | .gguf =>
      machine.fitCheckNoFit path
      let placement ← machine.placementFor path
      (engines.load machine.now path .gguf placement).map
        (EngineThread.start path)
  | .mistral =>
      if pool.loras ≠ [] then
        .error "--lora needs the gguf backend".toList
      else
        (engines.load machine.now path .mistral .cpu).map
          (EngineThread.start path)
  | .auto => .error "internal error: backend was not resolved".toList

/-- The status of an error of `with_engine`. -/
def errorStatus (error : Text) : Nat :=
  if "unfit:".toList <+: error ∨ "does not fit".toList <:+: error then 503
  else if "not found".toList <:+: error then 404
  else 400

/-- The model that a body asks for. -/
def modelId (defaultId : Text) : Option Text → Text
  | some id => if id = [] then defaultId else id
  | none => defaultId

/-- The events of the clients, the handlers, the runtime and the threads. -/
inductive Event where
  | arrive (model : Option Text) (body : Body)
  | acquire (request : Nat)
  | ensure (request : Nat) (machine : Machine)
  | send (request : Nat)
  | wake (request : Nat)
  | cancel (request : Nat)
  /-- an engine for nobody: the warm-up, or a client that has hung up -/
  | warm (id : Text) (machine : Machine)
  | sweep (now : Nat)
  | take (thread : Thread)
  | serve (thread : Thread)
  | leave (thread : Thread)
  | die (thread : Thread)

namespace AppState

variable {σ : Type}

def setPhase (server : AppState σ) (index : Nat) (request : Request)
    (phase : Phase) : AppState σ :=
  { server with
    requests := server.requests.set index { request with phase := phase } }

/-- The end of a handler that has a permit. -/
def finish (server : AppState σ) (index : Nat) (request : Request)
    (phase : Phase) : AppState σ :=
  { server.setPhase index request phase with permits := server.permits + 1 }

def setThread (server : AppState σ) (thread : Thread)
    (state : EngineThread σ) : AppState σ :=
  { server with threads := server.threads.set thread state }

/-- `ensure_engine` of the pool, and the thread that it starts. -/
def ensureEngine (engines : LocalEngine σ) (server : AppState σ)
    (machine : Machine) (id : Text) : Except Text Thread × AppState σ :=
  let ensured :=
    server.pool.ensureEngine
      (machine.host engines server.threads.length) id
  (ensured.1,
    { server with
      pool := ensured.2
      threads :=
        match server.pool.engines.lookup id,
            startEngine server.pool machine engines id with
        | none, .ok started => server.threads ++ [started]
        | _, _ => server.threads })

def withEngine (engines : LocalEngine σ) (server : AppState σ)
    (machine : Machine) (model : Option Text) :
    Except (Nat × Text) Thread × AppState σ :=
  match resolveId server.pool (modelId server.defaultId model) with
  | .error error => (.error (errorStatus error, error), server)
  | .ok id =>
      let ensured := server.ensureEngine engines machine id
      match ensured.1 with
      | .error error => (.error (errorStatus error, error), ensured.2)
      | .ok thread => (.ok thread, ensured.2)

/-- The threads whose receiving end is gone. -/
def stopped (server : AppState σ) : List Thread :=
  (List.range server.threads.length).filter fun thread =>
    match server.threads[thread]? with
    | some state => state.status ≠ .running
    | none => false

/-- An idle job for an engine of the pool. -/
def idle (engines : AList fun _ : Text => Thread)
    (threads : List (EngineThread σ)) (id : Text) :
    List (EngineThread σ) :=
  match engines.lookup id with
  | some thread =>
      match threads[thread]? with
      | some state => threads.set thread (state.send .idle)
      | none => threads
  | none => threads

def sweep (server : AppState σ) (now : Nat) : AppState σ :=
  let swept := server.pool.idleSweep server.stopped now
  { server with
    pool := swept.1
    threads :=
      swept.2.foldl (idle server.pool.engines) server.threads }

/-- The receiver of a job is told, unless it has gone. -/
def deliver (server : AppState σ) (resp : Resp)
    (reply : Except Text Output) : AppState σ :=
  match server.requests[resp.request]? with
  | some request =>
      match request.phase with
      | .awaiting thread outputs none =>
          if resp.index = outputs.length then
            server.setPhase resp.request request
              (.awaiting thread outputs (some reply))
          else server
      | _ => server
  | none => server

/-- A thread does the job that it has in hand. -/
def serve (engines : LocalEngine σ) (server : AppState σ)
    (thread : Thread) (state : EngineThread σ) : AppState σ :=
  match state.jobs.hand with
  | none => server
  | some (.ask ask resp) =>
      let worked := state.work engines ask
      (server.setThread thread
        { worked.2 with jobs := state.jobs.finish }).deliver resp worked.1
  | some .idle =>
      server.setThread thread
        { state with
          engine := engines.onIdle state.engine
          jobs := state.jobs.finish }

/-- Somebody can still send to a thread. -/
def referenced (server : AppState σ) (thread : Thread) : Bool :=
  server.pool.engines.entries.any (fun entry => entry.2 = thread) ||
    server.requests.any fun request =>
      request.phase.sender = some thread

/-- A thread died, and with it the jobs it had. -/
def die (server : AppState σ) (thread : Thread) (state : EngineThread σ) :
    AppState σ :=
  { server.setThread thread { state with status := .died } with
    requests :=
      server.requests.map fun request =>
        { request with phase := request.phase.dropped thread } }

/-- `recv` fails when nobody can send any more. -/
def leave (server : AppState σ) (thread : Thread)
    (state : EngineThread σ) : AppState σ :=
  if state.jobs.pending = [] ∧ server.referenced thread = false then
    server.setThread thread { state with status := .left }
  else server

/-! ### Handlers -/

section

variable (engines : LocalEngine σ) (server : AppState σ) (index : Nat)
  (request : Request)

/-- `acquire_parallel`, and the checks of the body behind it. -/
def acquireParallel : AppState σ :=
  match request.phase, server.permits, request.body.asks with
  | .waiting, _ + 1, .error error =>
      server.setPhase index request (.answered (.error (400, error)))
  | .waiting, permits + 1, .ok _ =>
      { server.setPhase index request .admitted with permits := permits }
  | _, _, _ => server

def ensure (machine : Machine) : AppState σ :=
  match request.phase with
  | .admitted =>
      let ensured := server.withEngine engines machine request.model
      match ensured.1 with
      | .error error =>
          ensured.2.finish index request (.answered (.error error))
      | .ok thread =>
          ensured.2.setPhase index request (.holding thread [])
  | _ => server

/-- Send the next job of a request. -/
def send : AppState σ :=
  match request.phase, request.body.asks with
  | .holding thread outputs, .ok asks =>
      match asks[outputs.length]?, server.threads[thread]? with
      | some ask, some worker =>
          if worker.status = .running then
            (server.setThread thread
              (worker.send (.ask ask ⟨index, outputs.length⟩))).setPhase
                index request (.awaiting thread outputs none)
          else
            server.finish index request
              (.answered (.error (500, "engine thread stopped".toList)))
      | _, _ => server
  | _, _ => server

/-- Go on with the answer to a job. -/
def wake : AppState σ :=
  match request.phase, request.body.asks with
  | .awaiting _ _ (some (.error error)), .ok _ =>
      server.finish index request (.answered (.error (500, error)))
  | .awaiting thread outputs (some (.ok output)), .ok asks =>
      if outputs.length + 1 < asks.length then
        server.setPhase index request
          (.holding thread (outputs ++ [output]))
      else
        server.finish index request
          (.answered (.ok (outputs ++ [output])))
  | _, _ => server

/-- The runtime drops the handler of a client that hung up. -/
def cancel : AppState σ :=
  if request.phase.ended then server
  else if request.phase.permitted then
    server.finish index request .gone
  else server.setPhase index request .gone

end

/-! ### Steps -/

def onRequest (server : AppState σ) (index : Nat)
    (step : Request → AppState σ) : AppState σ :=
  match server.requests[index]? with
  | some request => step request
  | none => server

def onThread (server : AppState σ) (thread : Thread)
    (step : EngineThread σ → AppState σ) : AppState σ :=
  match server.threads[thread]? with
  | some worker => if worker.status = .running then step worker else server
  | none => server

def after (engines : LocalEngine σ) (server : AppState σ) :
    Event → AppState σ
  | .arrive model body =>
      { server with
        requests := server.requests ++ [⟨model, body, .waiting⟩] }
  | .acquire index => server.onRequest index (server.acquireParallel index)
  | .ensure index machine =>
      server.onRequest index fun request =>
        server.ensure engines index request machine
  | .send index => server.onRequest index (server.send index)
  | .wake index => server.onRequest index (server.wake index)
  | .cancel index => server.onRequest index (server.cancel index)
  | .warm id machine => (server.ensureEngine engines machine id).2
  | .sweep now => server.sweep now
  | .take thread =>
      server.onThread thread fun worker =>
        server.setThread thread { worker with jobs := worker.jobs.take }
  | .serve thread => server.onThread thread (server.serve engines thread)
  | .leave thread => server.onThread thread (server.leave thread)
  | .die thread => server.onThread thread (server.die thread)

def run (engines : LocalEngine σ) (server : AppState σ)
    (events : List Event) : AppState σ :=
  events.foldl (after engines) server

end AppState

end Runa.App.Server
