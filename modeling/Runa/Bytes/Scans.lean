import Mathlib.Algebra.Order.Group.Nat
import Mathlib.Tactic.Common

/-!
# Scanning bytes

A scan is a program that takes bytes from the front of a buffer, a number of
them at a time, and ends with a value or with an error of its own.  What it
asks for next may depend on what it has seen.  A request that the buffer does
not hold, or whose end is not a position below a limit, ends the scan as
short, with the error that stands at the request.

A scan that ends never looks at what is behind its end, and on less than it
has taken it is short (`outcome_append`, `outcome_take`).  `Reads` says that a
scan reads some bytes as a value whatever follows them; it composes along the
scan and is what round trips are made of.
-/

namespace Runa.Bytes.Scans

/-- A program that takes bytes. -/
inductive Scan (ε α : Type) where
  | done (value : α)
  | fail (error : ε)
  | take (count : Nat) (short : ε) (next : List UInt8 → Scan ε α)

/-- How a scan ends, and where; a short one says which end it asked for. -/
inductive Outcome (ε α : Type) where
  | ended (value : α) (position : Nat)
  | failed (error : ε) (position : Nat)
  | short (error : ε) (wanted : Nat)
deriving DecidableEq

variable {ε α β : Type}

namespace Scan

def bind : Scan ε α → (α → Scan ε β) → Scan ε β
  | done value, next => next value
  | fail error, _ => fail error
  | take count short rest, next =>
      take count short fun bytes => (rest bytes).bind next

instance : Monad (Scan ε) where
  pure := done
  bind := bind

/-- Take some bytes. -/
def bytes (count : Nat) (short : ε) : Scan ε (List UInt8) :=
  take count short done

/-- The same scan so many times. -/
def times : Nat → Scan ε α → Scan ε (List α)
  | 0, _ => done []
  | count + 1, scan => do
      let first ← scan
      let rest ← scan.times count
      return first :: rest

/-- The run of a scan from a position, on the bytes that are there. -/
def outcome (limit : Nat) : Scan ε α → Nat → List UInt8 → Outcome ε α
  | done value, position, _ => .ended value position
  | fail error, position, _ => .failed error position
  | take count short next, position, buffer =>
      if position + count < limit ∧ count ≤ buffer.length then
        (next (buffer.take count)).outcome limit (position + count)
          (buffer.drop count)
      else
        .short short (position + count)

end Scan

/-- The value and the position behind it, or the error. -/
def Outcome.result : Outcome ε α → Except ε (α × Nat)
  | ended value position => .ok (value, position)
  | failed error _ => .error error
  | short error _ => .error error

/-- Go on from a value and its position. -/
def Outcome.andThen (first : Outcome ε α)
    (next : α → Nat → Outcome ε β) : Outcome ε β :=
  match first with
  | ended value position => next value position
  | failed error position => failed error position
  | short error wanted => short error wanted

@[simp]
theorem Outcome.ended_andThen
    (value : α) (position : Nat) (next : α → Nat → Outcome ε β) :
    (ended value position : Outcome ε α).andThen next =
      next value position :=
  rfl

/-- A whole run. -/
def Scan.run (limit : Nat) (scan : Scan ε α) (buffer : List UInt8) :
    Except ε (α × Nat) :=
  (scan.outcome limit 0 buffer).result

@[simp]
theorem pure_eq (value : α) : (pure value : Scan ε α) = .done value :=
  rfl

@[simp]
theorem done_bind (value : α) (next : α → Scan ε β) :
    (Scan.done value >>= next) = next value :=
  rfl

@[simp]
theorem fail_bind (error : ε) (next : α → Scan ε β) :
    (Scan.fail error >>= next) = .fail error :=
  rfl

@[simp]
theorem take_bind
    (count : Nat) (short : ε) (rest : List UInt8 → Scan ε α)
    (next : α → Scan ε β) :
    (Scan.take count short rest >>= next) =
      .take count short fun bytes => rest bytes >>= next :=
  rfl

variable {limit position stop wanted : Nat} {scan : Scan ε α}
variable {buffer : List UInt8} {value : α} {error : ε}

/-- A request is met, or the scan is short at it. -/
theorem outcome_request (count : Nat) (short : ε)
    (next : List UInt8 → Scan ε α) :
    (Scan.take count short next).outcome limit position buffer =
      if position + count < limit ∧ count ≤ buffer.length then
        (next (buffer.take count)).outcome limit (position + count)
          (buffer.drop count)
      else
        .short short (position + count) :=
  rfl

/-! ## Where a scan ends -/

/-- The outcome says that the scan came to an end of its own. -/
def Outcome.EndsAt : Outcome ε α → Nat → Prop
  | ended _ position, stop => position = stop
  | failed _ position, stop => position = stop
  | short _ _, _ => False

theorem endsAt_bounds
    (ends : (scan.outcome limit position buffer).EndsAt stop) :
    position ≤ stop ∧ stop ≤ position + buffer.length := by
  induction scan generalizing position buffer with
  | done value =>
      cases ends
      exact ⟨le_refl _, Nat.le_add_right _ _⟩
  | fail error =>
      cases ends
      exact ⟨le_refl _, Nat.le_add_right _ _⟩
  | take count short next induction =>
      rw [outcome_request] at ends
      split_ifs at ends with here
      · have further := induction _ ends
        rw [List.length_drop] at further
        omega
      · exact ends.elim

theorem ended_bounds
    (ends :
      scan.outcome limit position buffer = .ended value stop) :
    position ≤ stop ∧ stop ≤ position + buffer.length := by
  have stops : (scan.outcome limit position buffer).EndsAt stop := by
    rw [ends]
    rfl
  exact endsAt_bounds stops

/-- Where a scan has come to, or wanted to. -/
def Outcome.place : Outcome ε α → Nat
  | ended _ position => position
  | failed _ position => position
  | short _ wanted => wanted

theorem le_place :
    position ≤ (scan.outcome limit position buffer).place := by
  induction scan generalizing position buffer with
  | done value => exact le_refl _
  | fail error => exact le_refl _
  | take count short next induction =>
      rw [outcome_request]
      split_ifs with here
      · exact (Nat.le_add_right _ _).trans (induction _)
      · exact Nat.le_add_right _ _

/-- A scan that is short wants to get past the end, whatever follows it. -/
theorem short_place
    (ends : scan.outcome limit position buffer = .short error wanted)
    (below : position + buffer.length < limit) (more : List UInt8) :
    position + buffer.length <
      (scan.outcome limit position (buffer ++ more)).place := by
  induction scan generalizing position buffer with
  | done value => cases ends
  | fail error => cases ends
  | take count short next induction =>
      rw [outcome_request] at ends
      rw [outcome_request]
      split_ifs at ends with here
      · have there :
            position + count < limit ∧ count ≤ (buffer ++ more).length := by
          rw [List.length_append]
          omega
        have rest := List.length_drop (i := count) (l := buffer)
        rw [if_pos there, List.take_append_of_le_length here.2,
          List.drop_append_of_le_length here.2]
        have further := induction _ ends (by omega)
        omega
      · split_ifs with there
        · have onward :=
            @le_place _ _ limit (position + count)
              (next ((buffer ++ more).take count))
              ((buffer ++ more).drop count)
          omega
        · change position + buffer.length < position + count
          rw [List.length_append] at there
          omega

/-- A scan followed by another goes on where it has ended. -/
theorem outcome_bind (next : α → Scan ε β) :
    (scan >>= next).outcome limit position buffer =
      (scan.outcome limit position buffer).andThen fun value stop =>
        (next value).outcome limit stop
          (buffer.drop (stop - position)) := by
  induction scan generalizing position buffer with
  | done value =>
      change _ = (next value).outcome limit position _
      rw [done_bind, Nat.sub_self, List.drop_zero]
  | fail error => rfl
  | take count short rest induction =>
      rw [take_bind, outcome_request, outcome_request]
      split_ifs with here
      · rw [induction]
        cases ends :
            (rest (buffer.take count)).outcome limit (position + count)
              (buffer.drop count) with
        | ended value stop =>
            have bounds := ended_bounds ends
            have split :
                count + (stop - (position + count)) = stop - position := by
              omega
            rw [Outcome.ended_andThen, Outcome.ended_andThen,
              List.drop_drop, split]
        | failed error stop => rfl
        | short error wanted => rfl
      · rfl

/-- An end does not depend on what is behind it. -/
theorem outcome_append
    (ends : (scan.outcome limit position buffer).EndsAt stop)
    (more : List UInt8) :
    scan.outcome limit position (buffer ++ more) =
      scan.outcome limit position buffer := by
  induction scan generalizing position buffer with
  | done value => rfl
  | fail error => rfl
  | take count short next induction =>
      rw [outcome_request] at ends
      rw [outcome_request, outcome_request]
      split_ifs at ends with here
      · have there :
            position + count < limit ∧ count ≤ (buffer ++ more).length := by
          rw [List.length_append]
          omega
        rw [if_pos here, if_pos there, List.take_append_of_le_length here.2,
          List.drop_append_of_le_length here.2]
        exact induction _ ends
      · exact ends.elim

/-- On less than it has taken a scan is short, of something it has taken. -/
theorem outcome_take
    (ends : (scan.outcome limit position buffer).EndsAt stop)
    {cut : Nat} (less : position + cut < stop) :
    ∃ error wanted,
      scan.outcome limit position (buffer.take cut) =
          .short error wanted ∧
        position + cut < wanted ∧ wanted ≤ stop := by
  induction scan generalizing position buffer cut with
  | done value =>
      cases ends
      omega
  | fail error =>
      cases ends
      omega
  | take count short next induction =>
      have bounds := endsAt_bounds ends
      rw [outcome_request] at ends
      rw [outcome_request]
      split_ifs at ends with here
      · have further := endsAt_bounds ends
        by_cases reach : count ≤ cut
        · have there :
              position + count < limit ∧
                count ≤ (buffer.take cut).length := by
            rw [List.length_take]
            omega
          rw [if_pos there, List.take_take, Nat.min_eq_left reach,
            List.drop_take]
          have inner : position + count + (cut - count) < stop := by
            omega
          obtain ⟨error, wanted, short, before, behind⟩ :=
            induction _ ends inner
          exact ⟨error, wanted, short, by omega, behind⟩
        · have there :
              ¬ (position + count < limit ∧
                count ≤ (buffer.take cut).length) := by
            rw [List.length_take]
            omega
          rw [if_neg there]
          exact ⟨short, position + count, rfl, by omega, further.1⟩
      · exact ends.elim

/-! ## Errors -/

/-- All errors of short requests have a property. -/
def Shorts (allowed : ε → Prop) : Scan ε α → Prop
  | .done _ => True
  | .fail _ => True
  | .take _ short next =>
      allowed short ∧ ∀ bytes, Shorts allowed (next bytes)

theorem shorts_outcome {allowed : ε → Prop}
    (shorts : Shorts allowed scan)
    (ends :
      scan.outcome limit position buffer = .short error wanted) :
    allowed error := by
  induction scan generalizing position buffer with
  | done value => cases ends
  | fail error => cases ends
  | take count short next induction =>
      rw [outcome_request] at ends
      split_ifs at ends with here
      · exact induction _ (shorts.2 _) ends
      · cases ends
        exact shorts.1

theorem shorts_bind {allowed : ε → Prop} {next : α → Scan ε β}
    (first : Shorts allowed scan)
    (second : ∀ value, Shorts allowed (next value)) :
    Shorts allowed (scan >>= next) := by
  induction scan with
  | done value => exact second value
  | fail error => trivial
  | take count short rest induction =>
      exact ⟨first.1, fun bytes => induction bytes (first.2 bytes)⟩

theorem shorts_times {allowed : ε → Prop} (each : Shorts allowed scan)
    (count : Nat) : Shorts allowed (scan.times count) := by
  induction count with
  | zero => trivial
  | succ count induction =>
      exact shorts_bind each fun _ => shorts_bind induction fun _ => trivial

/-! ## Reading back -/

/-- The scan reads these bytes as this value, whatever follows them. -/
def Reads (limit : Nat) (scan : Scan ε α) (bytes : List UInt8)
    (value : α) : Prop :=
  ∀ position more,
    position + bytes.length < limit →
      scan.outcome limit position (bytes ++ more) =
        .ended value (position + bytes.length)

theorem reads_done (value : α) :
    Reads limit (Scan.done value : Scan ε α) [] value := by
  intro position more _
  rfl

theorem reads_take
    {count : Nat} {short : ε} {next : List UInt8 → Scan ε α}
    {bytes rest : List UInt8}
    (length : bytes.length = count)
    (onward : Reads limit (next bytes) rest value) :
    Reads limit (.take count short next) (bytes ++ rest) value := by
  intro position more below
  rw [List.length_append] at below
  have here :
      position + count < limit ∧
        count ≤ (bytes ++ rest ++ more).length := by
    rw [List.length_append, List.length_append]
    omega
  rw [outcome_request, if_pos here, List.append_assoc,
    List.take_left' length, List.drop_left' length,
    onward _ _ (by omega), List.length_append, length, Nat.add_assoc]

theorem reads_bind
    {next : α → Scan ε β} {front back : List UInt8} {result : β}
    (first : Reads limit scan front value)
    (second : Reads limit (next value) back result) :
    Reads limit (scan >>= next) (front ++ back) result := by
  intro position more below
  rw [List.length_append] at below
  rw [outcome_bind, List.append_assoc, first _ _ (by omega),
    Outcome.ended_andThen, Nat.add_sub_cancel_left, List.drop_left,
    second _ _ (by omega), List.length_append, Nat.add_assoc]

/-- What is read may be known to be shorter than the limit. -/
theorem reads_of_short {bytes : List UInt8}
    (reads : bytes.length < limit → Reads limit scan bytes value) :
    Reads limit scan bytes value := by
  intro position more below
  exact reads (by omega) position more below

theorem reads_bytes {count : Nat} (short : ε) {bytes : List UInt8}
    (length : bytes.length = count) :
    Reads limit (Scan.bytes count short) bytes bytes := by
  have reads :=
    @reads_take ε _ limit bytes count short Scan.done bytes [] length
      (reads_done bytes)
  rwa [List.append_nil] at reads

theorem reads_map {bytes : List UInt8} (convert : α → β)
    (reads : Reads limit scan bytes value) :
    Reads limit (scan >>= fun value => pure (convert value)) bytes
      (convert value) := by
  have onward :=
    @reads_bind ε _ _ limit scan value (fun value => pure (convert value))
      bytes [] (convert value) reads (reads_done _)
  rwa [List.append_nil] at onward

/-- A list that is read one by one. -/
theorem reads_times {γ : Type} {items : List γ}
    {each : γ → List UInt8} {read : γ → α}
    (reads : ∀ item ∈ items, Reads limit scan (each item) (read item)) :
    Reads limit (scan.times items.length) (items.flatMap each)
      (items.map read) := by
  induction items with
  | nil => exact reads_done []
  | cons item items induction =>
      obtain ⟨here, others⟩ := List.forall_mem_cons.mp reads
      rw [List.flatMap_cons, List.length_cons, Scan.times]
      exact reads_bind here (reads_map _ (induction others))

end Runa.Bytes.Scans
