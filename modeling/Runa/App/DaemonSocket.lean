import Mathlib.Data.List.Basic

/-!
# The socket of the daemon

Daemons start, stop and crash on one socket path.  A daemon that starts takes
away whatever file is there and binds its own; one that stops takes away
whatever file is there; one that crashes leaves the file.  A daemon that
starts beside a living one thus cuts that one off, and takes the path with it
when it stops.
-/

namespace Runa.App.DaemonSocket

/-- The file at the path, known by the daemon that bound it, the daemons that
are alive, and how many there have been. -/
structure Host where
  file : Option Nat
  alive : List Nat
  started : Nat
  deriving DecidableEq

/-- `std::fs::remove_file` -/
def removeFile (host : Host) : Host :=
  { host with file := none }

/-- `UnixListener::bind`, which fails if there is a file. -/
def bind (host : Host) : Option Host :=
  match host.file with
  | some _ => none
  | none =>
    some
      { file := some host.started
        alive := host.started :: host.alive
        started := host.started + 1 }

inductive Step where
  | start
  | stop (daemon : Nat)
  | crash (daemon : Nat)

/-- `serve` up to its accept loop: whether it gets there, and the host. -/
def start (host : Host) : Bool × Host :=
  let cleared := if host.file.isSome then removeFile host else host
  match bind cleared with
  | some bound => (true, bound)
  | none => (false, cleared)

/-- A daemon is gone. -/
def leave (host : Host) (daemon : Nat) : Host :=
  { host with alive := host.alive.erase daemon }

/-- `serve` behind its accept loop. -/
def stop (host : Host) (daemon : Nat) : Host :=
  leave (removeFile host) daemon

/-- One step; a daemon that is not alive neither stops nor crashes. -/
def step (host : Host) : Step → Host
  | .start => (start host).2
  | .stop daemon =>
    if daemon ∈ host.alive then stop host daemon else host
  | .crash daemon =>
    if daemon ∈ host.alive then leave host daemon else host

/-- A client that connects to the path reaches the daemon. -/
def Reaches (host : Host) (daemon : Nat) : Prop :=
  host.file = some daemon ∧ daemon ∈ host.alive

/-- One live daemon, over one step. -/
structure StepHolds (host : Host) (taken : Step) : Prop where
  refused : taken = .start → host.alive ≠ [] →
    (start host).1 = false ∧
      ∀ daemon ∈ host.alive, Reaches (step host taken) daemon
  reached : ∀ daemon ∈ (step host taken).alive,
    Reaches (step host taken) daemon
  kept : ∀ daemon other, taken = .stop daemon → other ≠ daemon →
    Reaches host other → Reaches (step host taken) other

def OneDaemon : Host → List Step → Prop
  | _, [] => True
  | host, taken :: later =>
    StepHolds host taken ∧ OneDaemon (step host taken) later

/-- No daemon starts while another one is alive. -/
def Alone : Host → List Step → Prop
  | _, [] => True
  | host, taken :: later =>
    (taken = .start → host.alive = []) ∧ Alone (step host taken) later

/-- At most one daemon is alive, and the file is its own. -/
inductive Single (host : Host) : Prop where
  | nobody (alive : host.alive = [])
  | served (daemon : Nat) (alive : host.alive = [daemon])
      (file : host.file = some daemon)

/-- A start always succeeds. -/
theorem start_eq (host : Host) :
    start host =
      (true,
        { file := some host.started
          alive := host.started :: host.alive
          started := host.started + 1 }) := by
  cases file : host.file with
  | none => simp [start, file, bind]
  | some old => simp [start, file, bind, removeFile]

section

variable {host : Host}

/-- With nobody alive, a daemon that starts is the one. -/
theorem Single.start (nobody : host.alive = []) :
    Single (step host .start) := by
  rw [step, start_eq, nobody]
  exact Single.served host.started rfl rfl

theorem Single.crash (single : Single host) (daemon : Nat) :
    Single (step host (.crash daemon)) := by
  rw [step]
  split
  · next there =>
      cases single with
      | nobody alive =>
          rw [alive] at there
          exact absurd there List.not_mem_nil
      | served other alive file =>
          rw [alive] at there
          obtain rfl := List.mem_singleton.mp there
          apply Single.nobody
          rw [leave, alive, List.erase_cons_head]
  · exact single

theorem Single.stop (single : Single host) (daemon : Nat) :
    Single (step host (.stop daemon)) := by
  rw [step]
  split
  · next there =>
      cases single with
      | nobody alive =>
          rw [alive] at there
          exact absurd there List.not_mem_nil
      | served other alive file =>
          rw [alive] at there
          obtain rfl := List.mem_singleton.mp there
          apply Single.nobody
          show host.alive.erase daemon = []
          rw [alive, List.erase_cons_head]
  · exact single

theorem Single.step (single : Single host) {taken : Step}
    (alone : taken = .start → host.alive = []) :
    Single (step host taken) := by
  cases taken with
  | start => exact Single.start (alone rfl)
  | stop daemon => exact single.stop daemon
  | crash daemon => exact single.crash daemon

theorem Single.reached (single : Single host) :
    ∀ daemon ∈ host.alive, Reaches host daemon := by
  intro daemon there
  cases single with
  | nobody alive =>
      rw [alive] at there
      exact absurd there List.not_mem_nil
  | served other alive file =>
      refine ⟨?_, there⟩
      rw [alive] at there
      rw [file, List.mem_singleton.mp there]

/-- A daemon that stops is the only one there was. -/
theorem Single.kept (single : Single host) {daemon other : Nat}
    (apart : other ≠ daemon) (reaches : Reaches host other) :
    Reaches (DaemonSocket.step host (.stop daemon)) other := by
  rw [DaemonSocket.step]
  split
  · next there =>
      cases single with
      | nobody alive =>
          rw [alive] at there
          exact absurd there List.not_mem_nil
      | served served alive file =>
          rw [alive] at there
          have same := reaches.1.symm.trans file
          rw [List.mem_singleton.mp there] at apart
          exact absurd (Option.some.inj same) apart
  · exact reaches

/-- A step keeps the law exactly if it is no start beside a living daemon. -/
theorem stepHolds_iff (single : Single host) (taken : Step) :
    StepHolds host taken ↔ (taken = .start → host.alive = []) := by
  constructor
  · rintro holds rfl
    by_contra living
    have failed := (holds.refused rfl living).1
    rw [start_eq] at failed
    cases failed
  · intro alone
    constructor
    · exact fun starts living => absurd (alone starts) living
    · exact (single.step alone).reached
    · rintro daemon other rfl apart reaches
      exact single.kept apart reaches

theorem oneDaemon_iff_of_single (single : Single host)
    (steps : List Step) : OneDaemon host steps ↔ Alone host steps := by
  induction steps generalizing host with
  | nil => exact Iff.rfl
  | cons taken later ih =>
      rw [OneDaemon, Alone, stepHolds_iff single]
      exact and_congr_right fun alone => ih (single.step alone)

end

/-- There is one daemon at the path all along exactly if none starts beside a
living one. -/
theorem oneDaemon_iff {host : Host} (nobody : host.alive = [])
    (steps : List Step) : OneDaemon host steps ↔ Alone host steps :=
  oneDaemon_iff_of_single (Single.nobody nobody) steps

/-- A stale file, a crash, and a stop. -/
theorem oneDaemon_turns :
    OneDaemon ⟨some 0, [], 1⟩
      [.start, .crash 1, .start, .stop 2, .start] := by
  apply (oneDaemon_iff rfl _).mpr
  simp [Alone, step, start_eq, leave, stop, removeFile]

/-- The second daemon cuts the first one off. -/
theorem not_oneDaemon_twice :
    ¬ OneDaemon ⟨none, [], 0⟩ [.start, .start, .stop 0] := by
  rintro ⟨-, second, -⟩
  have failed := (second.refused rfl (by decide)).1
  exact absurd failed (by decide)

end Runa.App.DaemonSocket
