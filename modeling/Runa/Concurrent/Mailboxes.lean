import Mathlib.Algebra.GroupWithZero.Nat
import Mathlib.Algebra.Order.BigOperators.Group.List
import Mathlib.Algebra.Order.Group.Nat

/-!
# Mailboxes

A worker takes the messages of its mailbox one at a time, in the order in
which they were sent.  A mailbox remembers what it was sent and what its
worker is done with, and carries the proof that it lost nothing.
-/

namespace Runa.Concurrent.Mailboxes

/-- A queue of messages, with the one that the worker has in hand. -/
structure Mailbox (α : Type) where
  sent : List α
  finished : List α
  hand : Option α
  queue : List α
  orderly : finished ++ (hand.toList ++ queue) = sent
deriving DecidableEq

namespace Mailbox

variable {α : Type}

def empty : Mailbox α where
  sent := []
  finished := []
  hand := none
  queue := []
  orderly := rfl

def send (mailbox : Mailbox α) (message : α) : Mailbox α where
  sent := mailbox.sent ++ [message]
  finished := mailbox.finished
  hand := mailbox.hand
  queue := mailbox.queue ++ [message]
  orderly := by
    rw [← mailbox.orderly]
    simp only [List.append_assoc]

/-- Take the next message in hand, if the hand is free. -/
def take (mailbox : Mailbox α) : Mailbox α :=
  match free : mailbox.hand, waits : mailbox.queue with
  | none, message :: rest =>
      { sent := mailbox.sent
        finished := mailbox.finished
        hand := some message
        queue := rest
        orderly := by
          rw [← mailbox.orderly, free, waits]
          rfl }
  | _, _ => mailbox

/-- Be done with the message in hand. -/
def finish (mailbox : Mailbox α) : Mailbox α where
  sent := mailbox.sent
  finished := mailbox.finished ++ mailbox.hand.toList
  hand := none
  queue := mailbox.queue
  orderly := by
    rw [← mailbox.orderly]
    exact List.append_assoc _ _ _

/-- What the worker still has to do. -/
def pending (mailbox : Mailbox α) : List α :=
  mailbox.hand.toList ++ mailbox.queue

variable {mailbox : Mailbox α} {message : α}

@[simp]
theorem pending_send :
    (mailbox.send message).pending = mailbox.pending ++ [message] :=
  (List.append_assoc _ _ _).symm

theorem take_of_free {rest : List α} (free : mailbox.hand = none)
    (waits : mailbox.queue = message :: rest) :
    mailbox.take.hand = some message ∧ mailbox.take.queue = rest := by
  unfold take
  split
  · rename_i first more _ queue
    rw [waits] at queue
    cases queue
    exact ⟨rfl, rfl⟩
  · rename_i other
    exact (other _ _ free waits).elim

@[simp]
theorem pending_take : mailbox.take.pending = mailbox.pending := by
  unfold take
  split
  · rename_i first more free waits
    show (some first).toList ++ more = mailbox.hand.toList ++ mailbox.queue
    rw [free, waits]
    rfl
  · rfl

@[simp]
theorem sent_take : mailbox.take.sent = mailbox.sent := by
  unfold take
  split <;> rfl

/-- Being done with a message takes it off what is pending. -/
theorem pending_of_hand (held : mailbox.hand = some message) :
    mailbox.pending = message :: mailbox.finish.pending := by
  rw [pending, held]
  rfl

/-! ### The work that is left -/

/-- A message in the queue is to be taken and to be finished. -/
def load (mailbox : Mailbox α) : Nat :=
  mailbox.hand.toList.length + 2 * mailbox.queue.length

theorem load_take {rest : List α} (free : mailbox.hand = none)
    (waits : mailbox.queue = message :: rest) :
    mailbox.take.load + 1 = mailbox.load := by
  rcases take_of_free free waits with ⟨hand, queue⟩
  rw [load, load, hand, queue, free, waits]
  simp only [Option.toList_some, Option.toList_none, List.length_nil,
    List.length_cons]
  omega

theorem load_finish (held : mailbox.hand = some message) :
    mailbox.finish.load + 1 = mailbox.load := by
  rw [load, load, held]
  simp only [finish, Option.toList_some, Option.toList_none,
    List.length_singleton, List.length_nil]
  omega

end Mailbox

/-! ## Tables -/

/-- What a table adds up to after one row was replaced. -/
theorem sum_map_set {α : Type} (weigh : α → Nat) {table : List α}
    {row : Nat} {old : α} (there : table[row]? = some old) (new : α) :
    ((table.set row new).map weigh).sum + weigh old =
      (table.map weigh).sum + weigh new := by
  induction table generalizing row with
  | nil => cases there
  | cons first rest ih =>
      cases row with
      | zero =>
          cases there
          simp only [List.set_cons_zero, List.map_cons, List.sum_cons]
          omega
      | succ row =>
          have later := ih there
          simp only [List.set_cons_succ, List.map_cons, List.sum_cons]
          omega

/-- A row is part of what its table adds up to. -/
theorem le_sum_map {α : Type} (weigh : α → Nat) {table : List α}
    {row : Nat} {old : α} (there : table[row]? = some old) :
    weigh old ≤ (table.map weigh).sum :=
  List.le_sum_of_mem
    (List.mem_map_of_mem (List.mem_of_getElem? there))

theorem getElem?_set_of_some {α : Type} {table : List α} {row other : Nat}
    {old : α} (there : table[row]? = some old) (new : α) :
    (table.set row new)[other]? =
      if other = row then some new else table[other]? := by
  have short : row < table.length := (List.getElem?_eq_some_iff.mp there).1
  rw [List.getElem?_set]
  by_cases same : other = row
  · rw [if_pos same.symm, if_pos short, if_pos same]
  · rw [if_neg (Ne.symm same), if_neg same]

end Runa.Concurrent.Mailboxes
