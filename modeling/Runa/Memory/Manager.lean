import Runa.Concurrent.Interleaving
import Runa.Stream.Utf8

/-!
# The memory manager

`MemoryManager` keeps its backend, its load state, the growth it has granted
and the time of its last activity behind a lock each, and takes these locks
one at a time.  So a call is a sequence of actions, one for each lock that it
takes, and calls of other threads come in between.  The backend is
`FakeBackend`; its additions wrap as in a release build.
-/

namespace Runa.Memory.Manager

open Runa.Stream.Utf8
open Runa.Concurrent.Interleaving

/-- Idle / normal / heavy load state. -/
inductive LoadState where
  | idle
  | normal
  | heavy
  deriving DecidableEq

/-- Policy knobs from `[memory]` in config. -/
structure MemoryPolicy where
  idleTimeoutS : UInt64
  floorMib : UInt64
  maxGrowthMib : UInt64
  deriving DecidableEq

def MemoryPolicy.default : MemoryPolicy where
  idleTimeoutS := 300
  floorMib := 512
  maxGrowthMib := 4096

/-- Snapshot returned by `current_usage`. -/
structure Usage where
  rssMib : UInt64
  budgetMib : UInt64
  state : LoadState
  deriving DecidableEq

/-- Grow failures. -/
inductive MemoryError where
  | overCeiling (demandMib ceilingMib : UInt64) (suggestion : Text)
  deriving DecidableEq

def overCeilingSuggestion : Text :=
  "smaller --ctx, another quant, --kv q8_0, or cloud".toList

/-- `u64::saturating_add` -/
def saturatingAdd (left right : UInt64) : UInt64 :=
  if left.toNat + right.toNat < 2 ^ 64 then left + right
  else UInt64.ofNat (2 ^ 64 - 1)

/-! ## The backend -/

structure FakeBackend where
  rssMib : UInt64
  /-- Model weights that must stay resident. -/
  modelFloorMib : UInt64
  deriving DecidableEq

def FakeBackend.shrinkTo (backend : FakeBackend) (targetMib : UInt64) :
    FakeBackend :=
  let floor := backend.modelFloorMib
  { backend with rssMib := min (max targetMib floor) backend.rssMib }

def FakeBackend.grow (backend : FakeBackend) (additionalMib : UInt64) :
    FakeBackend :=
  { backend with rssMib := backend.rssMib + additionalMib }

/-! ## The manager -/

/-- What never changes. -/
structure Setup where
  policy : MemoryPolicy
  fitCeilingMib : UInt64

/-- What is behind the locks; an instant is a number of nanoseconds. -/
structure Shared where
  backend : FakeBackend
  state : LoadState
  grantedGrowthMib : UInt64
  lastActivity : Nat
  deriving DecidableEq

/-- A new manager, made at an instant. -/
def new (backend : FakeBackend) (now : Nat) : Shared where
  backend := backend
  state := .normal
  grantedGrowthMib := 0
  lastActivity := now

def ceilingMib (setup : Setup) (currentRss : UInt64) : UInt64 :=
  let growthCap := saturatingAdd currentRss setup.policy.maxGrowthMib
  min setup.fitCeilingMib growthCap

/-- The calls, with what the clock shows to each. -/
inductive Call where
  | currentUsage
  | touch (now : Nat)
  | maybeIdle (now idleAt : Nat)
  | onIdle (idleAt : Nat)
  | onHeavy (demandMib : UInt64) (now : Nat)
  | shrinkToFloor
  | growFor (demandMib : UInt64) (now : Nat)

/-- The locks that a call has still to take.  A shrink that knows an instant
is that of `on_idle`, and a growth that is kept quiet that of `on_heavy`. -/
inductive Held where
  | usageRss
  | usageState (rss : UInt64)
  | touch (now : Nat)
  | elapsed (now idleAt : Nat)
  | shrinkBefore (idleAt : Option Nat)
  | shrinkBackend (idleAt : Option Nat)
  | shrinkAfter (idleAt : Option Nat)
  | shrinkState (idleAt : Option Nat)
  | shrinkGranted (idleAt : Option Nat)
  | shrinkActivity (idleAt : Nat)
  | growTouch (quiet : Bool) (demandMib : UInt64) (now : Nat)
  | growCheck (quiet : Bool) (demandMib : UInt64)
  | growBackend (quiet : Bool) (demandMib : UInt64)
  | growGranted (quiet : Bool) (demandMib : UInt64)
  | growState (quiet : Bool)
  deriving DecidableEq

inductive Answer where
  | unit
  | usage (usage : Usage)
  | grown (result : Except MemoryError Unit)

/-- `on_heavy` drops the result of `grow_for`. -/
def grownAnswer (quiet : Bool) (result : Except MemoryError Unit) : Answer :=
  if quiet then .unit else .grown result

def enter : Call → Held
  | .currentUsage => .usageRss
  | .touch now => .touch now
  | .maybeIdle now idleAt => .elapsed now idleAt
  | .onIdle idleAt => .shrinkBefore (some idleAt)
  | .onHeavy demandMib now => .growTouch true demandMib now
  | .shrinkToFloor => .shrinkBefore none
  | .growFor demandMib now => .growTouch false demandMib now

/-- One lock is taken. -/
def act (setup : Setup) : Held → Shared → Shared × Onward Held Answer
  | .usageRss, shared => (shared, .more (.usageState shared.backend.rssMib))
  | .usageState rss, shared =>
    (shared, .done (.usage ⟨rss, ceilingMib setup rss, shared.state⟩))
  | .touch now, shared => ({ shared with lastActivity := now }, .done .unit)
  | .elapsed now idleAt, shared =>
    let seconds := (now - shared.lastActivity) / 10 ^ 9
    if setup.policy.idleTimeoutS.toNat ≤ seconds then
      (shared, .more (.shrinkBefore (some idleAt)))
    else (shared, .done .unit)
  -- what is read before and after a shrink is only logged
  | .shrinkBefore idleAt, shared => (shared, .more (.shrinkBackend idleAt))
  | .shrinkBackend idleAt, shared =>
    ({ shared with
        backend := shared.backend.shrinkTo setup.policy.floorMib },
      .more (.shrinkAfter idleAt))
  | .shrinkAfter idleAt, shared => (shared, .more (.shrinkState idleAt))
  | .shrinkState idleAt, shared =>
    ({ shared with state := .idle }, .more (.shrinkGranted idleAt))
  | .shrinkGranted idleAt, shared =>
    ({ shared with grantedGrowthMib := 0 },
      match idleAt with
      | some idleAt => .more (.shrinkActivity idleAt)
      | none => .done .unit)
  | .shrinkActivity idleAt, shared =>
    ({ shared with lastActivity := idleAt }, .done .unit)
  | .growTouch quiet demandMib now, shared =>
    ({ shared with lastActivity := now },
      .more (.growCheck quiet demandMib))
  | .growCheck quiet demandMib, shared =>
    let current := shared.backend.rssMib
    let ceiling := ceilingMib setup current
    if ceiling < saturatingAdd current demandMib then
      (shared,
        .done (grownAnswer quiet
          (.error (.overCeiling demandMib ceiling overCeilingSuggestion))))
    else (shared, .more (.growBackend quiet demandMib))
  | .growBackend quiet demandMib, shared =>
    ({ shared with backend := shared.backend.grow demandMib },
      .more (.growGranted quiet demandMib))
  | .growGranted quiet demandMib, shared =>
    ({ shared with
        grantedGrowthMib := shared.grantedGrowthMib + demandMib },
      .more (.growState quiet))
  | .growState quiet, shared =>
    ({ shared with state := .heavy }, .done (grownAnswer quiet (.ok ())))

def memoryManager (setup : Setup) : System Shared Call Held Answer where
  enter := enter
  act := act setup

end Runa.Memory.Manager
