import Runa.App.ServerSteps

/-!
# Runs of the server

What every step of the server keeps: how many requests are let in, what the
pool was configured with, which threads its channels lead to, what the
threads have in their mailboxes and which request waits for it.
-/

namespace Runa.App.Server

open Runa.App.Pool
open Runa.App.PoolDaemon (evictFrom_rest lookup_evictFrom resolveId)
open Runa.Concurrent.Mailboxes
open Runa.Engine.Generate
open Runa.Engine.Placements
open Runa.Engine.Requests (GenerateRequest)
open Runa.Stream.Utf8

variable {σ : Type} {engines : LocalEngine σ} {state next : AppState σ}
  {event : Event}

/-! ## Deliveries -/

/-- An answer reaches a request that waits for it, or nobody. -/
theorem deliver_cases (state : AppState σ) (resp : Resp)
    (reply : Except Text Output) :
    (state.deliver resp reply = state ∧
        ∀ request thread outputs,
          state.requests[resp.request]? = some request →
            request.phase = .awaiting thread outputs none →
              resp.index ≠ outputs.length) ∨
      ∃ request thread outputs,
        state.requests[resp.request]? = some request ∧
          request.phase = .awaiting thread outputs none ∧
            resp.index = outputs.length ∧
              state.deliver resp reply =
                state.setPhase resp.request request
                  (.awaiting thread outputs (some reply)) := by
  unfold AppState.deliver
  cases found : state.requests[resp.request]? with
  | none => exact Or.inl ⟨rfl, fun _ _ _ other => by cases other⟩
  | some request =>
      simp only
      split
      · rename_i thread outputs phase
        split_ifs with same
        · exact Or.inr ⟨request, thread, outputs, rfl, phase, same, rfl⟩
        · refine Or.inl ⟨rfl, ?_⟩
          rintro _ other more ⟨⟩ waits
          rw [phase] at waits
          cases waits
          exact same
      · rename_i different
        refine Or.inl ⟨rfl, ?_⟩
        rintro _ thread outputs ⟨⟩ waits
        exact (different thread outputs waits).elim

theorem deliver_rest (state : AppState σ) (resp : Resp)
    (reply : Except Text Output) :
    (state.deliver resp reply).pool = state.pool ∧
      (state.deliver resp reply).defaultId = state.defaultId ∧
        (state.deliver resp reply).threads = state.threads ∧
          (state.deliver resp reply).permits = state.permits := by
  rcases deliver_cases state resp reply with
    ⟨same, -⟩ | ⟨request, thread, outputs, -, -, -, same⟩
  · rw [same]
    exact ⟨rfl, rfl, rfl, rfl⟩
  · rw [same]
    exact ⟨rfl, rfl, rfl, rfl⟩

/-! ## Threads -/

/-- What an idle sweep keeps, if an idle job keeps it. -/
theorem idle_keeps {threads : List (EngineThread σ)}
    (keeps : List (EngineThread σ) → Prop)
    (step : ∀ threads thread worker, keeps threads →
      threads[thread]? = some worker →
        keeps (threads.set thread (worker.send .idle)))
    (pool : AList fun _ : Text => Thread) (ids : List Text)
    (begins : keeps threads) :
    keeps (ids.foldl (AppState.idle pool) threads) := by
  induction ids generalizing threads with
  | nil => exact begins
  | cons id ids ih =>
      apply ih
      unfold AppState.idle
      split
      · split
        · exact step _ _ _ begins ‹_›
        · exact begins
      · exact begins

theorem lookup_of_append {threads : List (EngineThread σ)} {index : Nat}
    {old new : EngineThread σ} (there : threads[index]? = some old) :
    (threads ++ [new])[index]? = some old := by
  have short := (List.getElem?_eq_some_iff.mp there).1
  rwa [List.getElem?_append_left short]

/-- Nobody refers to a thread that may leave. -/
theorem not_referenced {thread : Thread}
    (alone : state.referenced thread = false) :
    (∀ id, state.pool.engines.lookup id ≠ some thread) ∧
      ∀ request ∈ state.requests, request.phase.sender ≠ some thread := by
  unfold AppState.referenced at alone
  rw [Bool.or_eq_false_iff, List.any_eq_false, List.any_eq_false] at alone
  constructor
  · intro id found
    apply alone.1 ⟨id, thread⟩ (AList.mem_lookup_iff.mp found)
    exact decide_eq_true rfl
  · intro request member sends
    exact alone.2 request member (decide_eq_true sends)

/-! ## Permits -/

def Request.permits (request : Request) : Nat :=
  if request.phase.permitted then 1 else 0

/-- Permits are free, or with a request. -/
def Admits (parallel : Nat) (state : AppState σ) : Prop :=
  state.permits + (state.requests.map Request.permits).sum = parallel

theorem dropped_permitted (thread : Thread) (phase : Phase) :
    (phase.dropped thread).permitted = phase.permitted := by
  unfold Phase.dropped
  split
  · split_ifs <;> rfl
  · rfl

section

variable {parallel index : Nat} {request : Request} {phase : Phase}

/-- A request goes on with the permit it has, or without one. -/
theorem Admits.setPhase (admits : Admits parallel state)
    (found : state.requests[index]? = some request)
    (same : phase.permitted = request.phase.permitted) :
    Admits parallel (state.setPhase index request phase) := by
  have total :=
    sum_map_set Request.permits found { request with phase := phase }
  have equal :
      Request.permits { request with phase := phase } = request.permits := by
    simp only [Request.permits, same]
  unfold Admits at admits ⊢
  simp only [AppState.setPhase]
  omega

theorem Admits.finish (admits : Admits parallel state)
    (found : state.requests[index]? = some request)
    (before : request.phase.permitted = true)
    (after : phase.permitted = false) :
    Admits parallel (state.finish index request phase) := by
  have total :=
    sum_map_set Request.permits found { request with phase := phase }
  simp only [Request.permits, before, after, if_true, if_false,
    Bool.false_eq_true] at total
  unfold Admits at admits ⊢
  simp only [AppState.finish, AppState.setPhase]
  omega

theorem Admits.ensures {machine : Machine} {id : Text}
    {result : Except Text Thread} (admits : Admits parallel state)
    (ensures : Ensures engines state machine id result next) :
    Admits parallel next ∧ next.requests = state.requests ∧
      next.defaultId = state.defaultId := by
  cases ensures with
  | known found => exact ⟨admits, rfl, rfl⟩
  | failed absent fails => exact ⟨admits, rfl, rfl⟩
  | started absent starts => exact ⟨admits, rfl, rfl⟩

/-- Every step hands each permit on. -/
theorem Admits.step (admits : Admits parallel state)
    (step : Step engines state event next) : Admits parallel next := by
  cases step with
  | stay event => exact admits
  | arrive model body =>
      unfold Admits at admits ⊢
      rw [← admits, List.map_append, List.sum_append]
      rfl
  | refuse found phase bad =>
      exact admits.setPhase found (by rw [phase]; rfl)
  | @acquire index permits request asks found phase good permit =>
      have total :=
        sum_map_set Request.permits found
          { request with phase := .admitted }
      have before : request.permits = 0 := by
        rw [Request.permits, phase]
        rfl
      have after :
          Request.permits { request with phase := .admitted } = 1 := rfl
      unfold Admits at admits ⊢
      simp only [AppState.setPhase]
      omega
  | unknown found phase missing =>
      exact admits.finish found (by rw [phase]; rfl) rfl
  | unloaded found phase resolved fails =>
      exact admits.finish found (by rw [phase]; rfl) rfl
  | hold found phase resolved ensures =>
      rcases admits.ensures ensures with ⟨admits, same, -⟩
      rw [← same] at found
      exact admits.setPhase found (by rw [phase]; rfl)
  | @send index request thread worker outputs asks ask found phase good
      next there running =>
      have later : Admits parallel (state.setThread thread
          (worker.send (.ask ask ⟨index, outputs.length⟩))) := admits
      exact later.setPhase found (by rw [phase]; rfl)
  | stopped found phase good next there stopped =>
      exact admits.finish found (by rw [phase]; rfl) rfl
  | wakeFailed found phase =>
      exact admits.finish found (by rw [phase]; rfl) rfl
  | wakeMore found phase good more =>
      exact admits.setPhase found (by rw [phase]; rfl)
  | wakeDone found phase good last =>
      exact admits.finish found (by rw [phase]; rfl) rfl
  | cancel found permitted => exact admits.finish found permitted rfl
  | giveUp found phase =>
      exact admits.setPhase found (by rw [phase]; rfl)
  | warm ensures => exact (admits.ensures ensures).1
  | sweep now => exact admits
  | take there running => exact admits
  | @serve thread worker ask resp there running hand =>
      rcases deliver_cases
          (state.setThread thread
            { (worker.work engines ask).2 with
              jobs := worker.jobs.finish })
          resp (worker.work engines ask).1 with
        ⟨same, -⟩ | ⟨request, other, outputs, found, phase, -, same⟩
      · rw [same]
        exact admits
      · rw [same]
        have later : Admits parallel (state.setThread thread
            { (worker.work engines ask).2 with
              jobs := worker.jobs.finish }) := admits
        exact later.setPhase found (by rw [phase]; rfl)
  | idle there running hand => exact admits
  | leave there running finished alone => exact admits
  | @die thread worker there running =>
      have same :
          Request.permits ∘ (fun request : Request =>
              { request with phase := request.phase.dropped thread }) =
            Request.permits := by
        funext request
        simp only [Function.comp, Request.permits, dropped_permitted]
      unfold Admits at admits ⊢
      simp only [AppState.die, AppState.setThread, List.map_map, same]
      exact admits

end

/-! ## The pool -/

/-- A pool with the same models and settings, and no engine besides. -/
structure Within (before after : ModelPool) : Prop where
  specs : after.specs = before.specs
  order : after.order = before.order
  backend : after.backend = before.backend
  loras : after.loras = before.loras
  maxLoaded : after.maxLoaded = before.maxLoaded
  engines : ∀ id thread, after.engines.lookup id = some thread →
    before.engines.lookup id = some thread

theorem Within.refl (pool : ModelPool) : Within pool pool :=
  ⟨rfl, rfl, rfl, rfl, rfl, fun _ _ found => found⟩

theorem Within.trans {first second third : ModelPool}
    (before : Within first second) (after : Within second third) :
    Within first third where
  specs := after.specs.trans before.specs
  order := after.order.trans before.order
  backend := after.backend.trans before.backend
  loras := after.loras.trans before.loras
  maxLoaded := after.maxLoaded.trans before.maxLoaded
  engines id thread found :=
    before.engines id thread (after.engines id thread found)

theorem evictFrom_within (pool : ModelPool) (queue : List Text) :
    Within pool (pool.evictFrom queue) := by
  have rest :
      (pool.evictFrom queue).order = pool.order ∧
        (pool.evictFrom queue).maxLoaded = pool.maxLoaded := by
    induction queue generalizing pool with
    | nil => exact ⟨rfl, rfl⟩
    | cons front rest ih =>
        rw [ModelPool.evictFrom]
        split_ifs
        · exact ih _
        · exact ⟨rfl, rfl⟩
  rcases @evictFrom_rest pool queue with ⟨specs, backend, loras⟩
  exact ⟨specs, rest.1, backend, loras, rest.2,
    fun id thread found => lookup_evictFrom queue found⟩

theorem sweepOne_within (stopped : List Thread) (now : Nat)
    (swept : ModelPool × List Text) (id : Text) :
    Within swept.1 (ModelPool.sweepOne stopped now swept id).1 := by
  unfold ModelPool.sweepOne
  split
  · exact .refl _
  · split_ifs
    · refine ⟨rfl, rfl, rfl, rfl, rfl, ?_⟩
      intro other thread found
      change (swept.1.engines.erase id).lookup other = some thread at found
      by_cases same : other = id
      · rw [same, AList.lookup_erase] at found
        cases found
      · rwa [AList.lookup_erase_ne same] at found
    · exact ⟨rfl, rfl, rfl, rfl, rfl, fun _ _ found => found⟩

theorem idleSweep_within (pool : ModelPool) (stopped : List Thread)
    (now : Nat) : Within pool (pool.idleSweep stopped now).1 := by
  unfold ModelPool.idleSweep
  generalize pool.dueForIdle now = due
  suffices all : ∀ swept : ModelPool × List Text,
      Within swept.1
        (due.foldl (ModelPool.sweepOne stopped now) swept).1 from
    all (pool, [])
  induction due with
  | nil => exact fun swept => .refl _
  | cons id due ih =>
      intro swept
      exact (sweepOne_within stopped now swept id).trans (ih _)

/-- The models and the settings of a pool never change. -/
structure Configured (start pool : ModelPool) : Prop where
  specs : pool.specs = start.specs
  order : pool.order = start.order
  backend : pool.backend = start.backend
  loras : pool.loras = start.loras
  maxLoaded : pool.maxLoaded = start.maxLoaded

section

variable {start pool : ModelPool}

theorem Configured.within (configured : Configured start pool)
    {after : ModelPool} (within : Within pool after) :
    Configured start after where
  specs := within.specs.trans configured.specs
  order := within.order.trans configured.order
  backend := within.backend.trans configured.backend
  loras := within.loras.trans configured.loras
  maxLoaded := within.maxLoaded.trans configured.maxLoaded

theorem Configured.resolveId (configured : Configured start pool)
    (model : Text) : resolveId pool model = resolveId start model := by
  unfold PoolDaemon.resolveId
  rw [configured.specs, configured.order]

theorem Configured.startEngine (configured : Configured start pool)
    (machine : Machine) (id : Text) :
    startEngine pool machine engines id =
      startEngine start machine engines id := by
  unfold Server.startEngine
  rw [configured.specs, configured.backend, configured.loras]

/-- A model that has just been loaded leaves the settings alone. -/
theorem Configured.loaded (configured : Configured start pool) (id : Text)
    (thread now : Nat) :
    Configured start (pool.loaded id thread now).evictIfNeeded := by
  have later : Configured start (pool.loaded id thread now) :=
    ⟨configured.specs, configured.order, configured.backend,
      configured.loras, configured.maxLoaded⟩
  exact later.within (evictFrom_within _ _)

theorem Configured.ensures {machine : Machine} {id : Text}
    {result : Except Text Thread}
    (configured : Configured start state.pool)
    (ensures : Ensures engines state machine id result next) :
    Configured start next.pool := by
  cases ensures with
  | known found =>
      exact ⟨configured.specs, configured.order, configured.backend,
        configured.loras, configured.maxLoaded⟩
  | failed absent fails => exact configured
  | started absent starts => exact configured.loaded id _ _

theorem Configured.step (configured : Configured start state.pool)
    (step : Step engines state event next) : Configured start next.pool := by
  cases step with
  | hold found phase resolved ensures =>
      have kept := configured.ensures ensures
      exact kept
  | warm ensures => exact configured.ensures ensures
  | sweep now => exact configured.within (idleSweep_within _ _ _)
  | serve there running hand =>
      rw [(deliver_rest _ _ _).1]
      exact configured
  | _ => exact configured

end

end Runa.App.Server
