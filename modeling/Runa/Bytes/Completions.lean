import Runa.Bytes.LittleEndian
import Runa.Bytes.Scans
import Mathlib.Data.ENat.Lattice

/-!
# What a scan is missing

Some errors of a scan ask for more bytes.  `missing` is the least number of
bytes that have to be appended to a buffer before the scan can come to any
other end, and is infinite where there is none: a request that the buffer does
not hold is completed in the best way (`completes_iff`).

It goes through a scan backwards: what follows a scan is a function of the
bytes that are left, and the scan turns it into a function of the bytes that
it starts on.  For scans whose values are not looked at this is all there is
to know (`Needs`); a number that is cut off is completed to the least one it
can be (`missing_word`).
-/

namespace Runa.Bytes.Completions

open Runa.Bytes.LittleEndian
open Runa.Bytes.Scans

variable {ε α β : Type} (stuck : ε → Bool)

/-- So many bytes. -/
abbrev Fill (count : Nat) := { bytes : List UInt8 // bytes.length = count }

instance (count : Nat) : Nonempty (Fill count) :=
  ⟨⟨List.replicate count 0, List.length_replicate⟩⟩

/-- How many bytes more it takes at least, and then what follows takes. -/
noncomputable def missing :
    Scan ε α → (α → List UInt8 → ℕ∞) → List UInt8 → ℕ∞
  | .done value, after, buffer => after value buffer
  | .fail error, _, _ => if stuck error then ⊤ else 0
  | .take count _ next, after, buffer =>
      if count ≤ buffer.length then
        missing (next (buffer.take count)) after (buffer.drop count)
      else
        ((count - buffer.length : Nat) : ℕ∞) +
          ⨅ more : Fill (count - buffer.length),
            missing (next (buffer ++ more.1)) after []

/-- The outcome asks for more bytes. -/
def Stuck : Outcome ε α → Prop
  | .ended _ _ => False
  | .failed error _ => stuck error = true
  | .short error _ => stuck error = true

variable {stuck} {scan : Scan ε α} {after : α → List UInt8 → ℕ∞}
variable {buffer : List UInt8}

@[simp]
theorem missing_done (value : α) :
    missing stuck (.done value : Scan ε α) after buffer =
      after value buffer :=
  rfl

/-- Each of two scans in a row needs its own. -/
theorem missing_bind (next : α → Scan ε β)
    {after : β → List UInt8 → ℕ∞} :
    missing stuck (scan >>= next) after buffer =
      missing stuck scan
        (fun value rest => missing stuck (next value) after rest)
        buffer := by
  induction scan generalizing buffer with
  | done value => rfl
  | fail error => rfl
  | take count short rest induction =>
      simp only [take_bind, missing, induction]

/-! ## What it means -/

variable {limit capacity position : Nat}

theorem add_iInf_lt_iff {ι : Type} [Nonempty ι] {least : ℕ∞}
    {cost : ι → ℕ∞} {bound : ℕ∞} :
    least + ⨅ index, cost index < bound ↔
      ∃ index, least + cost index < bound := by
  rw [ENat.add_iInf, iInf_lt_iff]

/-- A request that the buffer holds is read off it. -/
theorem outcome_of_enough
    {count : Nat} {short : ε} {next : List UInt8 → Scan ε α}
    (below : position + count < limit) (enough : count ≤ buffer.length) :
    (Scan.take count short next).outcome limit position buffer =
      (next (buffer.take count)).outcome limit (position + count)
        (buffer.drop count) := by
  rw [Scan.outcome, if_pos ⟨below, enough⟩]

theorem outcome_of_short
    {count : Nat} {short : ε} {next : List UInt8 → Scan ε α}
    (lacking : buffer.length < count) :
    (Scan.take count short next).outcome limit position buffer =
      .short short (position + count) := by
  rw [Scan.outcome, if_neg]
  omega

/-- With some bytes more, within a capacity, the scan ends otherwise. -/
def Completes
    (stuck : ε → Bool) (limit capacity : Nat) (scan : Scan ε α)
    (position : Nat) (buffer : List UInt8) : Prop :=
  ∃ more : List UInt8,
    position + (buffer ++ more).length < capacity ∧
      ¬ Stuck stuck (scan.outcome limit position (buffer ++ more))

/-- Where no bytes are looked at, none are needed. -/
theorem completes_of_never_stuck
    (never :
      ∀ more,
        ¬ Stuck stuck (scan.outcome limit position (buffer ++ more))) :
    Completes stuck limit capacity scan position buffer ↔
      position + buffer.length < capacity := by
  constructor
  · rintro ⟨more, below, -⟩
    rw [List.length_append] at below
    omega
  · intro below
    exact ⟨[], by rwa [List.append_nil], never []⟩

/-- A request that is held leaves the rest to be completed. -/
theorem completes_take_of_enough
    {count : Nat} {short : ε} {next : List UInt8 → Scan ε α}
    (addressable : capacity ≤ limit) (enough : count ≤ buffer.length) :
    Completes stuck limit capacity (.take count short next) position
        buffer ↔
      Completes stuck limit capacity (next (buffer.take count))
        (position + count) (buffer.drop count) := by
  refine exists_congr fun more => ?_
  have whole :
      position + count + (buffer.drop count ++ more).length =
        position + (buffer ++ more).length := by
    rw [List.length_append, List.length_append, List.length_drop]
    omega
  rw [whole]
  refine and_congr_right fun below => ?_
  have there : count ≤ (buffer ++ more).length := by
    rw [List.length_append]
    omega
  rw [outcome_of_enough (by omega) there,
    List.take_append_of_le_length enough,
    List.drop_append_of_le_length enough]

/-- A request that is not held is completed by the first new bytes. -/
theorem completes_take_of_short
    {count : Nat} {short : ε} {next : List UInt8 → Scan ε α}
    (addressable : capacity ≤ limit) (asks : stuck short = true)
    (lacking : buffer.length < count) :
    Completes stuck limit capacity (.take count short next) position
        buffer ↔
      ∃ front : Fill (count - buffer.length),
        Completes stuck limit capacity (next (buffer ++ front.1))
          (position + count) [] := by
  constructor
  · rintro ⟨more, below, otherwise⟩
    by_cases there : count ≤ (buffer ++ more).length
    · rw [outcome_of_enough (by omega) there] at otherwise
      rw [List.length_append] at there below
      have size :
          (more.take (count - buffer.length)).length =
            count - buffer.length := by
        rw [List.length_take]
        omega
      refine ⟨⟨_, size⟩, more.drop (count - buffer.length), ?_, ?_⟩
      · rw [List.nil_append, List.length_drop]
        omega
      · rwa [List.take_append, List.take_of_length_le lacking.le,
          List.drop_append, List.drop_of_length_le lacking.le] at otherwise
    · rw [outcome_of_short (not_le.mp there)] at otherwise
      exact (otherwise asks).elim
  · rintro ⟨⟨front, size⟩, more, below, otherwise⟩
    rw [List.nil_append] at below otherwise
    have exact : (buffer ++ front).length = count := by
      rw [List.length_append, size]
      omega
    refine ⟨front ++ more, ?_, ?_⟩
    · rw [← List.append_assoc, List.length_append, exact]
      omega
    · have there : count ≤ (buffer ++ front ++ more).length := by
        rw [List.length_append, exact]
        omega
      rw [← List.append_assoc, outcome_of_enough (by omega) there,
        List.take_left' exact, List.drop_left' exact]
      exact otherwise

/--
A scan that can end otherwise within some capacity is one that misses no more
than there is room for.
-/
theorem completes_iff
    (shorts : Shorts (fun error => stuck error = true) scan)
    (addressable : capacity ≤ limit) :
    Completes stuck limit capacity scan position buffer ↔
      ((position + buffer.length : Nat) : ℕ∞) +
          missing stuck scan (fun _ _ => 0) buffer <
        capacity := by
  induction scan generalizing position buffer with
  | done value =>
      rw [missing, add_zero, Nat.cast_lt]
      exact completes_of_never_stuck fun _ => id
  | fail error =>
      cases stays : stuck error with
      | true =>
          simp only [missing, stays, if_true, add_top, not_top_lt, iff_false]
          rintro ⟨more, -, otherwise⟩
          exact otherwise stays
      | false =>
          have never : ¬ stuck error = true := by
            rw [stays]
            exact Bool.false_ne_true
          rw [missing, if_neg never, add_zero, Nat.cast_lt]
          exact completes_of_never_stuck fun _ => never
  | take count short next induction =>
      rw [missing]
      split_ifs with enough
      · have places :
            position + count + (buffer.drop count).length =
              position + buffer.length := by
          rw [List.length_drop]
          omega
        rw [completes_take_of_enough addressable enough,
          induction _ (shorts.2 _), places]
      · have lacking : buffer.length < count := not_le.mp enough
        have places : ∀ cost : ℕ∞,
            ((position + buffer.length : Nat) : ℕ∞) +
                (((count - buffer.length : Nat) : ℕ∞) + cost) =
              ((position + count : Nat) : ℕ∞) + cost := by
          intro cost
          rw [← add_assoc, ← Nat.cast_add]
          congr 2
          omega
        rw [completes_take_of_short addressable shorts.1 lacking, places,
          add_iInf_lt_iff]
        refine exists_congr fun front => ?_
        rw [induction _ (shorts.2 _), List.length_nil, Nat.add_zero]

/-! ## Scans whose values are not looked at -/

/-- What is missing for some bytes, and then for what follows. -/
def skip (count : Nat) (rest : List UInt8 → ℕ∞)
    (buffer : List UInt8) : ℕ∞ :=
  if count ≤ buffer.length then rest (buffer.drop count)
  else ((count - buffer.length : Nat) : ℕ∞) + rest []

/-- The same so many times. -/
def repeated (step : (List UInt8 → ℕ∞) → List UInt8 → ℕ∞) :
    Nat → (List UInt8 → ℕ∞) → List UInt8 → ℕ∞
  | 0, rest => rest
  | count + 1, rest => step (repeated step count rest)

variable (stuck) in
/-- What the scan is missing, whatever it reads. -/
def Needs (scan : Scan ε α)
    (step : (List UInt8 → ℕ∞) → List UInt8 → ℕ∞) : Prop :=
  ∀ rest buffer, missing stuck scan (fun _ => rest) buffer = step rest buffer

variable {step step' : (List UInt8 → ℕ∞) → List UInt8 → ℕ∞}
variable {rest : List UInt8 → ℕ∞}

theorem needs_bytes (count : Nat) (short : ε) :
    Needs stuck (Scan.bytes count short) (skip count) := by
  intro rest buffer
  simp only [Scan.bytes, missing, skip, ciInf_const]

theorem needs_done (value : α) :
    Needs stuck (.done value : Scan ε α) fun rest => rest := by
  intro rest buffer
  rfl

theorem needs_bind {next : α → Scan ε β}
    (first : Needs stuck scan step)
    (second : ∀ value, Needs stuck (next value) step') :
    Needs stuck (scan >>= next) fun rest => step (step' rest) := by
  intro rest buffer
  have onward :
      (fun value rest' =>
          missing stuck (next value) (fun _ => rest) rest') =
        fun _ => step' rest := by
    funext value rest'
    exact second value rest rest'
  rw [missing_bind, onward, first]

theorem needs_map (convert : α → β) (first : Needs stuck scan step) :
    Needs stuck (scan >>= fun value => pure (convert value)) step :=
  needs_bind first fun _ => needs_done _

theorem needs_times (first : Needs stuck scan step) (count : Nat) :
    Needs stuck (scan.times count) (repeated step count) := by
  induction count with
  | zero => exact needs_done []
  | succ count induction =>
      have onward : ∀ value : α,
          Needs stuck
            (scan.times count >>= fun rest => pure (value :: rest))
            (repeated step count) :=
        fun value => needs_map (List.cons value) induction
      have both := needs_bind first onward
      exact both

theorem skip_nil (count : Nat) (rest : List UInt8 → ℕ∞) :
    skip count rest [] = count + rest [] := by
  rw [skip]
  split_ifs with none
  · have zero : count = 0 := Nat.le_zero.mp none
    simp [zero]
  · simp

/-- One run of bytes after another is one run. -/
theorem skip_skip (first second : Nat) (rest : List UInt8 → ℕ∞) :
    skip first (skip second rest) = skip (first + second) rest := by
  funext buffer
  by_cases one : first ≤ buffer.length
  · rw [skip, if_pos one, skip, skip, List.length_drop]
    by_cases both : first + second ≤ buffer.length
    · rw [if_pos (by omega), if_pos both, List.drop_drop]
    · rw [if_neg (by omega), if_neg both]
      congr 2
      omega
  · have neither : ¬ first + second ≤ buffer.length := by omega
    rw [skip, if_neg one, skip_nil, skip, if_neg neither, ← add_assoc,
      ← Nat.cast_add]
    congr 2
    omega

theorem repeated_skip (width count : Nat) :
    repeated (skip width) count = skip (count * width) := by
  induction count with
  | zero =>
      funext rest buffer
      simp [repeated, skip]
  | succ count induction =>
      funext rest buffer
      rw [repeated, induction, skip_skip, Nat.succ_mul, Nat.add_comm]

/-- So many times on no bytes, where each time takes as many. -/
theorem repeated_nil {each : Nat}
    (single : ∀ rest, step rest [] = each + rest []) (count : Nat) :
    repeated step count rest [] = ((count * each : Nat) : ℕ∞) + rest [] := by
  induction count with
  | zero => simp [repeated]
  | succ count induction =>
      rw [repeated, single, induction, ← add_assoc, ← Nat.cast_add,
        Nat.succ_mul, Nat.add_comm]

/-! ## Numbers -/

/-- What is missing for a number; one that is cut off is the least. -/
def number (width : Nat) (rest : Nat → List UInt8 → ℕ∞)
    (buffer : List UInt8) : ℕ∞ :=
  if width ≤ buffer.length then
    rest (leNat (buffer.take width)) (buffer.drop width)
  else ((width - buffer.length : Nat) : ℕ∞) + rest (leNat buffer) []

theorem number_nil (width : Nat) (rest : Nat → List UInt8 → ℕ∞) :
    number width rest [] = width + rest 0 [] := by
  rw [number]
  split_ifs with none
  · have zero : width = 0 := Nat.le_zero.mp none
    simp [zero, leNat]
  · simp [leNat]

/-- A number is looked at only where it fits its width. -/
theorem number_congr {width : Nat} {rest rest' : Nat → List UInt8 → ℕ∞}
    (same : ∀ n, n < 256 ^ width → rest n = rest' n) :
    number width rest buffer = number width rest' buffer := by
  rw [number, number]
  split_ifs with enough
  · have small := leNat_lt (buffer.take width)
    rw [List.length_take, Nat.min_eq_left enough] at small
    rw [same _ small]
  · have small :=
      (leNat_lt buffer).trans_le
        (Nat.pow_le_pow_right (by decide) (not_le.mp enough).le)
    rw [same _ small]

/-- What follows a number that is cut off wants the least one. -/
theorem missing_word {width : Nat} {short : ε} {convert : Nat → α}
    (least :
      ∀ low n, low ≤ n → n < 256 ^ width →
        after (convert low) [] ≤ after (convert n) []) :
    missing stuck
        (Scan.bytes width short >>= fun bytes =>
          pure (convert (leNat bytes)))
        after buffer =
      number width (fun n => after (convert n)) buffer := by
  simp only [Scan.bytes, take_bind, done_bind, pure_eq, missing, number]
  split_ifs with enough
  · rfl
  · congr 1
    have lacking : buffer.length < width := not_le.mp enough
    apply le_antisymm
    · let zeros : Fill (width - buffer.length) :=
        ⟨List.replicate _ 0, List.length_replicate⟩
      refine (iInf_le _ zeros).trans (le_of_eq ?_)
      rw [leNat_append, leNat_replicate_zero, Nat.mul_zero, Nat.add_zero]
    · refine le_iInf fun more => ?_
      apply least
      · rw [leNat_append]
        exact Nat.le_add_right _ _
      · have small := leNat_lt (buffer ++ more.1)
        rw [List.length_append, more.2] at small
        rwa [Nat.add_sub_cancel' lacking.le] at small

/-- A number, and what follows it by its value. -/
theorem missing_word_bind
    {width : Nat} {short : ε} {convert : Nat → α} {value : α → Nat}
    {next : α → Scan ε β} {after : β → List UInt8 → ℕ∞}
    {costs : Nat → List UInt8 → ℕ∞}
    (fits : ∀ n, n < 256 ^ width → value (convert n) = n)
    (each :
      ∀ item rest,
        missing stuck (next item) after rest = costs (value item) rest)
    (least : ∀ low n, low ≤ n → costs low [] ≤ costs n []) :
    missing stuck
        ((Scan.bytes width short >>= fun bytes =>
            pure (convert (leNat bytes))) >>= next)
        after buffer =
      number width costs buffer := by
  have onward :
      (fun item rest => missing stuck (next item) after rest) =
        fun item rest => costs (value item) rest := by
    funext item rest
    exact each item rest
  rw [missing_bind, onward, missing_word]
  · refine number_congr fun n small => ?_
    rw [fits n small]
  · intro low n below small
    rw [fits n small, fits low (below.trans_lt small)]
    exact least low n below

/-- A number that is cut off can still be a large one. -/
theorem exists_large {count : Nat} (lacking : buffer.length < count) :
    ∃ more : Fill (count - buffer.length),
      255 ≤ leNat (buffer ++ more.1) := by
  refine ⟨⟨List.replicate _ 255, List.length_replicate⟩, ?_⟩
  have some : count - buffer.length = count - buffer.length - 1 + 1 := by
    omega
  have high :
      255 ≤ leNat (List.replicate (count - buffer.length) 255) := by
    rw [some, List.replicate_succ, leNat]
    exact Nat.le_add_right 255 _
  rw [leNat_append]
  exact
    (high.trans (Nat.le_mul_of_pos_left _ (Nat.pow_pos (by decide)))).trans
      (Nat.le_add_left _ _)

/-- A request that can be completed to another end lacks nothing else. -/
theorem missing_take_of_escape
    {count : Nat} {short : ε} {next : List UInt8 → Scan ε α}
    (lacking : buffer.length < count)
    (escape :
      ∃ more : Fill (count - buffer.length),
        missing stuck (next (buffer ++ more.1)) after [] = 0) :
    missing stuck (.take count short next) after buffer =
      ((count - buffer.length : Nat) : ℕ∞) := by
  rw [missing, if_neg (not_le.mpr lacking), ENat.iInf_eq_zero.mpr escape,
    add_zero]

end Runa.Bytes.Completions
