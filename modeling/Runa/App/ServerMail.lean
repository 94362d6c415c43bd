import Runa.App.ServerRuns

/-!
# The mail of the server

Every job is sent once.  The thread that has it answers to the request that
waits for it, or to one that has gone, and every request that waits has its
job in the mailbox of its thread.
-/

namespace Runa.App.Server

open Runa.App.Pool
open Runa.Concurrent.Mailboxes
open Runa.Stream.Utf8

variable {σ : Type} {engines : LocalEngine σ} {state next : AppState σ}
  {event : Event}

/-! ## Every job is sent once -/

/-- How often a job was sent to a thread. -/
def EngineThread.times (resp : Resp) (worker : EngineThread σ) : Nat :=
  worker.jobs.sent.countP fun job => job.resp = some resp

def times (threads : List (EngineThread σ)) (resp : Resp) : Nat :=
  (threads.map (EngineThread.times resp)).sum

/-- The handler has sent its job of this number, or is over. -/
def Phase.reached (number : Nat) : Phase → Prop
  | .waiting | .admitted => False
  | .holding _ outputs => number < outputs.length
  | .awaiting _ outputs _ => number ≤ outputs.length
  | .answered _ | .gone => True

structure Once (state : AppState σ) : Prop where
  single : ∀ resp, times state.threads resp ≤ 1
  reached : ∀ resp, 0 < times state.threads resp →
    ∃ request, state.requests[resp.request]? = some request ∧
      request.phase.reached resp.index

section

variable {threads : List (EngineThread σ)} {thread : Thread} {resp : Resp}
  {worker replaced : EngineThread σ} {index : Nat} {request : Request}
  {phase : Phase}

/-- A thread that was sent nothing more leaves the count as it is. -/
theorem times_set (there : threads[thread]? = some worker)
    (sent : replaced.jobs.sent = worker.jobs.sent) (resp : Resp) :
    times (threads.set thread replaced) resp = times threads resp := by
  have total := sum_map_set (EngineThread.times resp) there replaced
  have equal : replaced.times resp = worker.times resp := by
    rw [EngineThread.times, EngineThread.times, sent]
  unfold times
  omega

theorem times_send (there : threads[thread]? = some worker)
    (job : EngineJob) (resp : Resp) :
    times (threads.set thread (worker.send job)) resp =
      times threads resp + if job.resp = some resp then 1 else 0 := by
  have total :=
    sum_map_set (EngineThread.times resp) there (worker.send job)
  have more :
      (worker.send job).times resp =
        worker.times resp + if job.resp = some resp then 1 else 0 := by
    simp only [EngineThread.times, EngineThread.send, Mailbox.send,
      List.countP_append, List.countP_singleton, decide_eq_true_eq]
  unfold times
  omega

theorem times_append (fresh : worker.jobs = .empty) (resp : Resp) :
    times (threads ++ [worker]) resp = times threads resp := by
  have none : worker.times resp = 0 := by
    rw [EngineThread.times, fresh]
    rfl
  unfold times
  rw [List.map_append, List.sum_append, List.map_singleton,
    List.sum_singleton, none]
  rfl

/-- The threads are the same to the count, and requests only go on. -/
theorem Once.of (once : Once state)
    (same : ∀ resp, times next.threads resp = times state.threads resp)
    (goes : ∀ (index : Nat) (request : Request),
      state.requests[index]? = some request →
        ∃ later : Request, next.requests[index]? = some later ∧
          ∀ number, request.phase.reached number →
            later.phase.reached number) : Once next where
  single resp := by
    rw [same]
    exact once.single resp
  reached resp some := by
    rw [same] at some
    rcases once.reached resp some with ⟨request, found, reached⟩
    rcases goes resp.request request found with ⟨later, there, goes⟩
    exact ⟨later, there, goes _ reached⟩

variable (state phase) in
theorem requests_setPhase (found : state.requests[index]? = some request)
    {other : Nat} {old : Request}
    (there : state.requests[other]? = some old) :
    ∃ later : Request,
      (state.setPhase index request phase).requests[other]? =
          some later ∧
        ((other = index ∧ old = request ∧
            later = { request with phase := phase }) ∨
          (other ≠ index ∧ later = old)) := by
  show ∃ later : Request,
    (state.requests.set index { request with phase := phase })[other]? =
      some later ∧ _
  rw [getElem?_set_of_some found]
  split_ifs with same
  · subst same
    rw [found] at there
    cases there
    exact ⟨_, rfl, Or.inl ⟨rfl, rfl, rfl⟩⟩
  · exact ⟨old, there, Or.inr ⟨same, rfl⟩⟩

theorem Once.setPhase (once : Once state)
    (found : state.requests[index]? = some request)
    (goes : ∀ number, request.phase.reached number →
      phase.reached number) :
    Once (state.setPhase index request phase) := by
  refine once.of (fun _ => rfl) fun other old there => ?_
  rcases requests_setPhase state phase found there with
    ⟨later, known, ⟨-, rfl, rfl⟩ | ⟨-, rfl⟩⟩
  · exact ⟨_, known, goes⟩
  · exact ⟨_, known, fun _ reached => reached⟩

theorem Once.finish (once : Once state)
    (found : state.requests[index]? = some request)
    (past : ∀ number, phase.reached number) :
    Once (state.finish index request phase) := by
  have moved := once.setPhase found fun number _ => past number
  exact moved.of (fun _ => rfl)
    fun _ later there => ⟨later, there, fun _ reached => reached⟩

theorem Once.setThreads (once : Once state) {later : List (EngineThread σ)}
    (same : ∀ resp, times later resp = times state.threads resp) :
    Once { state with threads := later } :=
  once.of same fun _ request there => ⟨request, there, fun _ reached => reached⟩

theorem Once.ensures {machine : Machine} {id : Text}
    {result : Except Text Thread} (once : Once state)
    (ensures : Ensures engines state machine id result next) :
    Once next := by
  cases ensures with
  | known found => exact ⟨once.single, once.reached⟩
  | failed absent fails => exact once
  | started absent starts =>
      apply once.of
      · intro resp
        apply times_append
        rw [(startEngine_ok starts).2.1]
        rfl
      · exact fun _ request there => ⟨request, there, fun _ reached => reached⟩

/-- The next job of a request has not been sent before. -/
theorem Once.unsent (once : Once state)
    (found : state.requests[index]? = some request) {number : Nat}
    (early : ¬ request.phase.reached number) :
    times state.threads ⟨index, number⟩ = 0 := by
  by_contra some
  rcases once.reached ⟨index, number⟩ (Nat.pos_of_ne_zero some) with
    ⟨other, known, reached⟩
  rw [found] at known
  cases known
  exact early reached

theorem Once.send (once : Once state)
    (found : state.requests[index]? = some request)
    {outputs : List Output}
    (holds : request.phase = .holding thread outputs)
    (there : state.threads[thread]? = some worker) (ask : Ask) :
    Once
      ((state.setThread thread
        (worker.send (.ask ask ⟨index, outputs.length⟩))).setPhase index
          request (.awaiting thread outputs none)) := by
  have fresh : times state.threads ⟨index, outputs.length⟩ = 0 := by
    apply once.unsent found
    rw [holds]
    exact Nat.lt_irrefl _
  have count := times_send there (.ask ask ⟨index, outputs.length⟩)
  constructor
  · intro resp
    have before := once.single resp
    show times (state.threads.set thread _) resp ≤ 1
    rw [count]
    split_ifs with same
    · cases same
      omega
    · exact before
  · intro resp some
    change 0 < times (state.threads.set thread _) resp at some
    rw [count] at some
    split_ifs at some with same
    · cases same
      rcases requests_setPhase
          (state.setThread thread
            (worker.send (.ask ask ⟨index, outputs.length⟩)))
          (.awaiting thread outputs none) found found with
        ⟨later, known, ⟨-, -, rfl⟩ | ⟨other, -⟩⟩
      · exact ⟨_, known, Nat.le_refl _⟩
      · exact (other rfl).elim
    · rcases once.reached resp some with ⟨old, known, reached⟩
      rcases requests_setPhase
          (state.setThread thread
            (worker.send (.ask ask ⟨index, outputs.length⟩)))
          (.awaiting thread outputs none) found known with
        ⟨later, after, ⟨-, rfl, rfl⟩ | ⟨-, rfl⟩⟩
      · refine ⟨_, after, ?_⟩
        rw [holds] at reached
        exact Nat.le_of_lt reached
      · exact ⟨_, after, reached⟩

/-- The request that is told has sent the same jobs. -/
theorem Once.serve (once : Once state)
    (there : state.threads[thread]? = some worker)
    {replaced : EngineThread σ} (sent : replaced.jobs.sent = worker.jobs.sent)
    (resp : Resp) (reply : Except Text Output) :
    Once ((state.setThread thread replaced).deliver resp reply) := by
  have kept : Once (state.setThread thread replaced) :=
    once.setThreads (times_set there sent)
  rcases deliver_cases (state.setThread thread replaced) resp reply with
    ⟨same, -⟩ | ⟨request, other, outputs, found, phase, -, same⟩
  · rw [same]
    exact kept
  · rw [same]
    apply kept.setPhase found
    intro number reached
    rw [phase] at reached
    exact reached

/-- A request has sent what it has, also when its thread dies. -/
theorem Once.die (once : Once state)
    (there : state.threads[thread]? = some worker) :
    Once (state.die thread worker) := by
  refine once.of (times_set there rfl) fun index request found => ?_
  refine ⟨{ request with phase := request.phase.dropped thread }, ?_, ?_⟩
  · show (state.requests.map _)[index]? = _
    rw [List.getElem?_map, found]
    rfl
  · intro number reached
    show (request.phase.dropped thread).reached number
    unfold Phase.dropped
    split
    · rename_i phase
      rw [phase] at reached
      split_ifs <;> exact reached
    · exact reached

theorem Once.step (once : Once state) (step : Step engines state event next) :
    Once next := by
  cases step with
  | stay event => exact once
  | arrive model body =>
      refine once.of (fun _ => rfl) fun index request there => ?_
      refine ⟨request, ?_, fun _ reached => reached⟩
      have short := (List.getElem?_eq_some_iff.mp there).1
      rwa [List.getElem?_append_left short]
  | refuse found phase bad => exact once.setPhase found fun _ _ => trivial
  | acquire found phase good permit =>
      have kept : Once (state.setPhase _ _ .admitted) :=
        once.setPhase found fun number reached => by
          rw [phase] at reached
          exact reached
      exact ⟨kept.single, kept.reached⟩
  | unknown found phase missing =>
      exact once.finish found fun _ => trivial
  | unloaded found phase resolved fails =>
      exact once.finish found fun _ => trivial
  | hold found phase resolved ensures =>
      have same := (Admits.ensures rfl ensures).2.1
      rw [← same] at found
      apply (once.ensures ensures).setPhase found
      intro number reached
      rw [phase] at reached
      exact reached.elim
  | send found phase good next there running =>
      exact once.send found phase there _
  | stopped found phase good next there stopped =>
      exact once.finish found fun _ => trivial
  | wakeFailed found phase => exact once.finish found fun _ => trivial
  | wakeMore found phase good more =>
      apply once.setPhase found
      intro number reached
      rw [phase] at reached
      show number < (_ ++ [_]).length
      rw [List.length_append]
      exact Nat.lt_succ_of_le reached
  | wakeDone found phase good last =>
      exact once.finish found fun _ => trivial
  | cancel found permitted => exact once.finish found fun _ => trivial
  | giveUp found phase => exact once.setPhase found fun _ _ => trivial
  | warm ensures => exact once.ensures ensures
  | sweep now =>
      have same : ∀ resp,
          times
            ((state.pool.idleSweep state.stopped now).2.foldl
              (AppState.idle state.pool.engines) state.threads) resp =
            times state.threads resp := by
        intro resp
        apply idle_keeps (fun threads =>
          times threads resp = times state.threads resp) _ _ _ rfl
        intro threads thread worker count there
        rw [times_send there, if_neg (by rintro ⟨⟩), count]
        rfl
      have kept := once.setThreads same
      exact ⟨kept.single, kept.reached⟩
  | take there running =>
      exact once.setThreads (times_set there Mailbox.sent_take)
  | serve there running hand =>
      apply once.serve there
      rfl
  | idle there running hand => exact once.setThreads (times_set there rfl)
  | leave there running finished alone =>
      exact once.setThreads (times_set there rfl)
  | die there running => exact once.die there

end

/-! ## Who waits for a job -/

/-- The handler waits for this job of this thread, or for nothing. -/
def Phase.waitsFor (thread : Thread) (number : Nat) : Phase → Prop
  | .gone => True
  | .awaiting other outputs none =>
      other = thread ∧ number = outputs.length
  | .waiting | .admitted | .holding _ _ | .awaiting _ _ (some _)
  | .answered _ => False

/-- What a running thread still has to do is waited for. -/
def Posted (state : AppState σ) : Prop :=
  ∀ (thread : Thread) (worker : EngineThread σ) (ask : Ask) (resp : Resp),
    state.threads[thread]? = some worker → worker.status = .running →
      EngineJob.ask ask resp ∈ worker.jobs.pending →
        ∃ request, state.requests[resp.request]? = some request ∧
          request.phase.waitsFor thread resp.index

section

variable {thread : Thread} {resp : Resp}
  {worker replaced : EngineThread σ} {index : Nat} {request : Request}
  {phase : Phase}

theorem Posted.setPhase (posted : Posted state)
    (found : state.requests[index]? = some request)
    (goes : ∀ thread number, request.phase.waitsFor thread number →
      phase.waitsFor thread number) :
    Posted (state.setPhase index request phase) := by
  intro thread worker ask resp there running member
  rcases posted thread worker ask resp there running member with
    ⟨old, known, waits⟩
  rcases requests_setPhase state phase found known with
    ⟨later, after, ⟨-, rfl, rfl⟩ | ⟨-, rfl⟩⟩
  · exact ⟨_, after, goes _ _ waits⟩
  · exact ⟨_, after, waits⟩

theorem Posted.finish (posted : Posted state)
    (found : state.requests[index]? = some request)
    (goes : ∀ thread number, request.phase.waitsFor thread number →
      phase.waitsFor thread number) :
    Posted (state.finish index request phase) :=
  posted.setPhase found goes

/-- A thread that is given no new jobs. -/
theorem Posted.setThread (posted : Posted state)
    (there : state.threads[thread]? = some worker)
    (running : replaced.status = .running → worker.status = .running)
    (fewer : ∀ ask resp,
      EngineJob.ask ask resp ∈ replaced.jobs.pending →
        EngineJob.ask ask resp ∈ worker.jobs.pending) :
    Posted (state.setThread thread replaced) := by
  intro other found ask resp
  show (state.threads.set thread replaced)[other]? = some found → _
  rw [getElem?_set_of_some there]
  split_ifs with same
  · rintro ⟨⟩ runs member
    rw [same]
    exact posted thread worker ask resp there (running runs)
      (fewer ask resp member)
  · exact posted other found ask resp

theorem Posted.ensures {machine : Machine} {id : Text}
    {result : Except Text Thread} (posted : Posted state)
    (ensures : Ensures engines state machine id result next) :
    Posted next := by
  cases ensures with
  | known found => exact posted
  | failed absent fails => exact posted
  | @started absent fresh starts =>
      intro thread worker ask resp there running member
      rcases List.getElem?_eq_some_iff.mp there with ⟨short, equal⟩
      rcases Nat.lt_or_ge thread state.threads.length with old | new
      · change (state.threads ++ [fresh])[thread]? = some worker at there
        rw [List.getElem?_append_left old] at there
        exact posted thread worker ask resp there running member
      · change (state.threads ++ [fresh])[thread]? = some worker at there
        rw [List.getElem?_append_right new,
          List.getElem?_singleton] at there
        split_ifs at there
        cases there
        rw [(startEngine_ok starts).2.1] at member
        cases member

/-- The job that a thread has in hand is in its mailbox only once. -/
theorem Once.hand (once : Once state)
    (there : state.threads[thread]? = some worker) {ask other : Ask}
    (hand : worker.jobs.hand = some (.ask ask resp)) :
    EngineJob.ask other resp ∉ worker.jobs.finish.pending := by
  intro again
  have single := once.single resp
  have part := le_sum_map (EngineThread.times resp) there
  have sent := worker.jobs.orderly
  have pending := Mailbox.pending_of_hand hand
  have twice : 2 ≤ worker.times resp := by
    rw [EngineThread.times, ← sent]
    change 2 ≤ List.countP _ (_ ++ worker.jobs.pending)
    rw [pending, List.countP_append,
      List.countP_cons_of_pos (by exact decide_eq_true rfl)]
    have more : 0 < List.countP
        (fun job => decide (EngineJob.resp job = some resp))
        worker.jobs.finish.pending :=
      List.countP_pos_iff.mpr ⟨_, again, decide_eq_true rfl⟩
    omega
  unfold times at single
  omega

/-- Only one request is told of a job that is done. -/
theorem Posted.serve (posted : Posted state) (once : Once state)
    (there : state.threads[thread]? = some worker)
    (running : worker.status = .running) {ask : Ask}
    (hand : worker.jobs.hand = some (.ask ask resp))
    (jobs : replaced.jobs = worker.jobs.finish)
    (reply : Except Text Output) :
    Posted ((state.setThread thread replaced).deliver resp reply) := by
  have pending := Mailbox.pending_of_hand hand
  have kept : Posted (state.setThread thread replaced) := by
    apply posted.setThread there (fun _ => running)
    intro ask resp member
    rw [pending]
    rw [jobs] at member
    exact List.mem_cons_of_mem _ member
  rcases deliver_cases (state.setThread thread replaced) resp reply with
    ⟨same, -⟩ | ⟨request, other, outputs, found, phase, index, same⟩
  · rw [same]
    exact kept
  · rw [same]
    intro holder busy more again there' runs member
    rcases kept holder busy more again there' runs member with
      ⟨old, known, waits⟩
    rcases requests_setPhase (state.setThread thread replaced)
        (.awaiting other outputs (some reply)) found known with
      ⟨later, after, ⟨named, rfl, rfl⟩ | ⟨-, rfl⟩⟩
    · -- the request waited for the job in hand, and for no other
      exfalso
      rcases posted thread worker ask resp there running
          (by rw [pending]; exact List.mem_cons_self) with
        ⟨first, known', before⟩
      change state.requests[resp.request]? = _ at found
      rw [found] at known'
      cases known'
      rw [phase] at before waits
      rcases before with ⟨rfl, -⟩
      rcases waits with ⟨rfl, number⟩
      have equal : again = resp := by
        cases again
        cases resp
        simp_all
      subst equal
      change (state.threads.set other replaced)[other]? = _ at there'
      rw [getElem?_set_of_some there, if_pos rfl] at there'
      cases there'
      rw [jobs] at member
      exact once.hand there hand member
    · exact ⟨_, after, waits⟩

theorem Posted.send (posted : Posted state)
    (found : state.requests[index]? = some request)
    {outputs : List Output}
    (holds : request.phase = .holding thread outputs)
    (there : state.threads[thread]? = some worker) (ask : Ask) :
    Posted
      ((state.setThread thread
        (worker.send (.ask ask ⟨index, outputs.length⟩))).setPhase index
          request (.awaiting thread outputs none)) := by
  intro holder busy more resp there' runs member
  have old : ∀ worker, state.threads[holder]? = some worker →
      worker.status = .running →
        EngineJob.ask more resp ∈ worker.jobs.pending →
          ∃ later : Request,
            ((state.setThread thread
              (worker.send (.ask ask
                ⟨index, outputs.length⟩))).setPhase index
                  request (.awaiting thread outputs none)).requests[
                    resp.request]? = some later ∧
              later.phase.waitsFor holder resp.index := by
    intro worker there runs member
    rcases posted holder worker more resp there runs member with
      ⟨old, known, waits⟩
    rcases requests_setPhase
        (state.setThread thread
          (worker.send (.ask ask ⟨index, outputs.length⟩)))
        (.awaiting thread outputs none) found known with
      ⟨later, after, ⟨-, rfl, rfl⟩ | ⟨-, rfl⟩⟩
    · rw [holds] at waits
      exact waits.elim
    · exact ⟨_, after, waits⟩
  change (state.threads.set thread
    (worker.send (.ask ask ⟨index, outputs.length⟩)))[holder]? = some busy
    at there'
  rw [getElem?_set_of_some there] at there'
  split_ifs at there' with same
  · cases there'
    subst same
    change EngineJob.ask more resp ∈ (worker.jobs.send _).pending at member
    rw [Mailbox.pending_send, List.mem_append, List.mem_singleton]
      at member
    rcases member with member | new
    · exact old worker there runs member
    · cases new
      rcases requests_setPhase
          (state.setThread holder
            (worker.send (.ask ask ⟨index, outputs.length⟩)))
          (.awaiting holder outputs none) found found with
        ⟨later, after, ⟨-, -, rfl⟩ | ⟨other, -⟩⟩
      · exact ⟨_, after, rfl, rfl⟩
      · exact (other rfl).elim
  · exact old busy there' runs member

/-- The jobs of the other threads are still waited for. -/
theorem Posted.die {worker : EngineThread σ} (posted : Posted state)
    (there : state.threads[thread]? = some worker) :
    Posted (state.die thread worker) := by
  intro other found ask resp there' runs member
  change (state.threads.set thread { worker with status := .died })[
    other]? = some found at there'
  rw [getElem?_set_of_some there] at there'
  split_ifs at there' with same
  · cases there'
    cases runs
  · rcases posted other found ask resp there' runs member with
      ⟨request, known, waits⟩
    refine ⟨{ request with phase := request.phase.dropped thread }, ?_, ?_⟩
    · show (state.requests.map _)[resp.request]? = _
      rw [List.getElem?_map, known]
      rfl
    · show (request.phase.dropped thread).waitsFor other resp.index
      unfold Phase.dropped
      split
      · rename_i phase
        rw [phase] at waits
        rw [if_neg]
        · exact waits
        · rintro rfl
          exact same waits.1.symm
      · exact waits

theorem Posted.step (posted : Posted state) (once : Once state)
    (step : Step engines state event next) : Posted next := by
  cases step with
  | stay event => exact posted
  | arrive model body =>
      intro thread worker ask resp there running member
      rcases posted thread worker ask resp there running member with
        ⟨request, found, waits⟩
      refine ⟨request, ?_, waits⟩
      have short := (List.getElem?_eq_some_iff.mp found).1
      rwa [List.getElem?_append_left short]
  | refuse found phase bad =>
      apply posted.setPhase found
      rw [phase]
      exact fun _ _ => False.elim
  | @acquire index permits request asks found phase good permit =>
      have kept : Posted (state.setPhase index request .admitted) := by
        apply posted.setPhase found
        rw [phase]
        exact fun _ _ => False.elim
      exact kept
  | hold found phase resolved ensures =>
      have same := (Admits.ensures rfl ensures).2.1
      rw [← same] at found
      apply (posted.ensures ensures).setPhase found
      rw [phase]
      exact fun _ _ => False.elim
  | send found phase good next there running =>
      exact posted.send found phase there _
  | wakeMore found phase good more =>
      apply posted.setPhase found
      rw [phase]
      exact fun _ _ => False.elim
  | giveUp found phase => exact posted.setPhase found fun _ _ _ => trivial
  | unknown found phase _ | unloaded found phase _ _
  | stopped found phase _ _ _ _ | wakeFailed found phase
  | wakeDone found phase _ _ =>
      apply posted.finish found
      rw [phase]
      exact fun _ _ => False.elim
  | cancel found permitted =>
      exact posted.finish found fun _ _ _ => trivial
  | warm ensures => exact posted.ensures ensures
  | sweep now =>
      have kept :
          Posted { state with
            threads :=
              (state.pool.idleSweep state.stopped now).2.foldl
                (AppState.idle state.pool.engines) state.threads } := by
        apply idle_keeps (fun threads =>
          Posted { state with threads := threads }) _ _ _ posted
        intro threads thread worker posted there
        refine Posted.setThread posted there (fun running => running)
          fun ask resp member => ?_
        change _ ∈ (worker.jobs.send .idle).pending at member
        rw [Mailbox.pending_send, List.mem_append,
          List.mem_singleton] at member
        rcases member with member | new
        · exact member
        · cases new
      exact kept
  | take there running =>
      apply posted.setThread there (fun _ => running)
      intro ask resp member
      rwa [Mailbox.pending_take] at member
  | serve there running hand =>
      exact posted.serve once there running hand rfl _
  | idle there running hand =>
      apply posted.setThread there (fun _ => running)
      intro ask resp member
      rw [Mailbox.pending_of_hand hand]
      exact List.mem_cons_of_mem _ member
  | leave there running finished alone =>
      apply posted.setThread there (fun left => by cases left)
      exact fun ask resp member => member
  | die there running => exact posted.die there

end

end Runa.App.Server
