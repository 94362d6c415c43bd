import Mathlib.Logic.Function.Basic

/-!
# Calls that interleave

Any number of threads make calls on one shared state.  A call in flight is a
value that says where it stands; an action turns it and the shared state into
what is left of the call, or into its result.  A run is any list of events: a
thread that is idle starts a call, or a thread in a call takes its next
action.
-/

namespace Runa.Concurrent.Interleaving

/-- What is left of a call. -/
inductive Onward (κ ρ : Type) where
  | more (rest : κ)
  | done (result : ρ)
  deriving DecidableEq

def Onward.rest {κ ρ : Type} : Onward κ ρ → Option κ
  | .more rest => some rest
  | .done _ => none

/-- How the calls enter, and the next action of a call in flight. -/
structure System (σ α κ ρ : Type) where
  enter : α → κ
  act : κ → σ → σ × Onward κ ρ

/-- The shared state, and what each thread is in the middle of. -/
structure Config (ι σ κ : Type) where
  shared : σ
  inFlight : ι → Option κ

/-- Nothing is going on. -/
def Config.idle {ι σ κ : Type} (shared : σ) : Config ι σ κ where
  shared := shared
  inFlight := fun _ => none

inductive Event (ι α : Type) where
  | start (thread : ι) (call : α)
  | advance (thread : ι)

variable {ι σ α κ ρ : Type} [DecidableEq ι]

/-- A thread begins a call. -/
def Config.begin (system : System σ α κ ρ) (config : Config ι σ κ)
    (thread : ι) (call : α) : Config ι σ κ where
  shared := config.shared
  inFlight :=
    Function.update config.inFlight thread (some (system.enter call))

/-- A thread takes the next action of its call. -/
def Config.take (system : System σ α κ ρ) (config : Config ι σ κ)
    (thread : ι) (held : κ) : Config ι σ κ where
  shared := (system.act held config.shared).1
  inFlight :=
    Function.update config.inFlight thread
      (system.act held config.shared).2.rest

/-- One event; a thread in a call starts no other, an idle one has no
action. -/
def step (system : System σ α κ ρ) (config : Config ι σ κ) :
    Event ι α → Config ι σ κ
  | .start thread call =>
    match config.inFlight thread with
    | none => config.begin system thread call
    | some _ => config
  | .advance thread =>
    match config.inFlight thread with
    | none => config
    | some held => config.take system thread held

def run (system : System σ α κ ρ) (config : Config ι σ κ)
    (events : List (Event ι α)) : Config ι σ κ :=
  events.foldl (step system) config

@[simp]
theorem run_nil (system : System σ α κ ρ) (config : Config ι σ κ) :
    run system config [] = config := rfl

@[simp]
theorem run_cons (system : System σ α κ ρ) (config : Config ι σ κ)
    (event : Event ι α) (later : List (Event ι α)) :
    run system config (event :: later) =
      run system (step system config event) later := rfl

/-- An action that was taken: by whom, of which call in flight, and on which
state. -/
structure Action (ι σ κ : Type) where
  thread : ι
  held : κ
  shared : σ
  deriving DecidableEq

/-- The actions of a run in their order. -/
def actions (system : System σ α κ ρ) :
    Config ι σ κ → List (Event ι α) → List (Action ι σ κ)
  | _, [] => []
  | config, .start thread call :: later =>
    actions system (step system config (.start thread call)) later
  | config, .advance thread :: later =>
    match config.inFlight thread with
    | none => actions system config later
    | some held =>
      ⟨thread, held, config.shared⟩ ::
        actions system (config.take system thread held) later

/-! ## What a run keeps -/

/-- Something holds of the shared state, and something of each call in flight
next to it. -/
structure Holds (state : σ → Prop) (flight : κ → σ → Prop)
    (config : Config ι σ κ) : Prop where
  state : state config.shared
  flight : ∀ thread held, config.inFlight thread = some held →
    flight held config.shared

/-- What an action hands on: the state, what is left of its own call, and the
calls of the other threads. -/
structure Hands (system : System σ α κ ρ) (state : σ → Prop)
    (flight flight' : κ → σ → Prop) (held : κ) (shared : σ) : Prop where
  state : state (system.act held shared).1
  rest : ∀ rest, (system.act held shared).2.rest = some rest →
    flight' rest (system.act held shared).1
  others : ∀ other, flight other shared →
    flight' other (system.act held shared).1

section

variable {system : System σ α κ ρ} {state state' : σ → Prop}
  {flight flight' : κ → σ → Prop} {config : Config ι σ κ}

omit [DecidableEq ι] in
theorem holds_idle {shared : σ} (good : state shared) :
    Holds state flight (Config.idle shared : Config ι σ κ) :=
  ⟨good, fun _ _ none => nomatch none⟩

theorem Holds.begin (holds : Holds state flight config) (thread : ι)
    {call : α} (enters : flight (system.enter call) config.shared) :
    Holds state flight (config.begin system thread call) := by
  refine ⟨holds.state, fun other held there => ?_⟩
  dsimp only [Config.begin] at there ⊢
  by_cases same : other = thread
  · subst same
    rw [Function.update_self] at there
    exact Option.some.inj there ▸ enters
  · rw [Function.update_of_ne same] at there
    exact holds.flight other held there

theorem Holds.take (holds : Holds state flight config) (thread : ι)
    {held : κ}
    (hands : Hands system state' flight flight' held config.shared) :
    Holds state' flight' (config.take system thread held) := by
  refine ⟨hands.state, fun other rest there => ?_⟩
  dsimp only [Config.take] at there ⊢
  by_cases same : other = thread
  · subst same
    rw [Function.update_self] at there
    exact hands.rest rest there
  · rw [Function.update_of_ne same] at there
    exact hands.others rest (holds.flight other rest there)

end

/-! ## Runs that are judged action by action -/

/-- Each of the list is judged next to all that came before it. -/
def Throughout {τ : Type} (judge : List τ → τ → Prop) :
    List τ → List τ → Prop
  | _, [] => True
  | past, one :: later =>
    judge past one ∧ Throughout judge (past ++ [one]) later

/-- A judgement that does not look back. -/
theorem throughout_const {τ : Type} (judge : τ → Prop) (past list : List τ) :
    Throughout (fun _ => judge) past list ↔ ∀ one ∈ list, judge one := by
  induction list generalizing past with
  | nil => exact iff_of_true trivial nofun
  | cons one later ih => rw [Throughout, List.forall_mem_cons, ih]

/-- An invariant that may speak of the actions so far.  Where it holds, an
action is judged well exactly if a condition holds of it, and then the
invariant is handed on. -/
structure Judges (system : System σ α κ ρ) (good : α → Prop)
    (judge : List (Action ι σ κ) → Action ι σ κ → Prop)
    (condition : Action ι σ κ → Prop)
    (state : List (Action ι σ κ) → σ → Prop)
    (flight : List (Action ι σ κ) → κ → σ → Prop) : Prop where
  enter : ∀ past call shared, good call → state past shared →
    flight past (system.enter call) shared
  judge : ∀ past action, state past action.shared →
    flight past action.held action.shared →
    (judge past action ↔ condition action)
  hands : ∀ past action, state past action.shared →
    flight past action.held action.shared → condition action →
    Hands system (state (past ++ [action])) (flight past)
      (flight (past ++ [action])) action.held action.shared

section

variable {system : System σ α κ ρ} {good : α → Prop}
  {judge : List (Action ι σ κ) → Action ι σ κ → Prop}
  {condition : Action ι σ κ → Prop}
  {state : List (Action ι σ κ) → σ → Prop}
  {flight : List (Action ι σ κ) → κ → σ → Prop}

/-- All actions of a run are judged well exactly if the condition holds of
all of them. -/
theorem Judges.throughout_iff
    (judges : Judges system good judge condition state flight)
    {past : List (Action ι σ κ)} {config : Config ι σ κ}
    (holds : Holds (state past) (flight past) config)
    {events : List (Event ι α)}
    (starts : ∀ thread call, Event.start thread call ∈ events →
      good call) :
    Throughout judge past (actions system config events) ↔
      ∀ action ∈ actions system config events, condition action := by
  induction events generalizing past config with
  | nil => exact iff_of_true trivial nofun
  | cons event later ih =>
      have behind : ∀ thread call, Event.start thread call ∈ later →
          good call := fun thread call member =>
        starts thread call (List.mem_cons_of_mem _ member)
      cases event with
      | start thread call =>
          rw [actions]
          apply ih _ behind
          rw [step]
          split
          · exact holds.begin thread (judges.enter past call _
              (starts thread call List.mem_cons_self) holds.state)
          · exact holds
      | advance thread =>
          rw [actions]
          split
          · exact ih holds behind
          · next held busy =>
              have waiting := holds.flight thread held busy
              rw [Throughout, List.forall_mem_cons,
                judges.judge past _ holds.state waiting]
              apply and_congr_right
              intro met
              exact ih (holds.take thread
                (judges.hands past ⟨thread, held, config.shared⟩
                  holds.state waiting met)) behind

end

end Runa.Concurrent.Interleaving
