import Runa.Stream.Occurrence
import Runa.Stream.Utf8

/-!
# The stop filter

The embedding of `split_emit` of `runa-engine/src/generate.rs`: a complete
stop string ends the text in front of it, and otherwise the longest end that
may still grow into a stop string is held back.  The source counts bytes and
slices the pending text at every length it tries; where such a slice would
start inside a character there is no result, because the program stops.

`splitEmit_eq` says what the filter computes on a text it can slice, and
`splitEmit_eq_none_iff` which texts it cannot slice.
-/

namespace Runa.Engine.StopFilter

open Runa.Stream.Occurrence
open Runa.Stream.Utf8

/-! ## The filter -/

/-- Outcome of scanning the pending text against stop strings. -/
inductive Split where
  | emit (emit keep : Text)
  | stop (before matched : Text)
deriving DecidableEq, Repr

/-- Empty stop strings are skipped. -/
def live (stops : List Text) : List Text :=
  stops.filter fun stop => !stop.isEmpty

/-- The longest end of at most `size` bytes that starts a stop string. -/
def longestStart (pending stop : Text) : Nat → Option Nat
  | 0 => some 0
  | size + 1 => do
      let tail ← dropBytes (byteLen pending - (size + 1)) pending
      if tail.isPrefixOf stop then some (size + 1)
      else longestStart pending stop size

/-- The number of bytes at least one stop string holds back. -/
def holdBytes (pending : Text) : List Text → Nat → Option Nat
  | [], hold => some hold
  | stop :: stops, hold => do
      let size ←
        longestStart pending stop
          (min (byteLen pending) (byteLen stop - 1))
      holdBytes pending stops (max hold size)

/-- No value where the source slices inside a character. -/
def splitEmit (pending : Text) (stops : List Text) : Option Split :=
  match earliest id (live stops) pending with
  | some (offset, matched) => some (.stop (pending.take offset) matched)
  | none => do
      let hold ← holdBytes pending (live stops) 0
      if hold = 0 then
        some (.emit pending [])
      else if byteLen pending ≤ hold then
        some (.emit [] pending)
      else
        let keep ← dropBytes (byteLen pending - hold) pending
        some (.emit (pending.take (pending.length - keep.length)) keep)

/-! ## Which texts can be sliced -/

/-- The most bytes of a text that can start a stop string properly. -/
def reach (pending stop : Text) : Nat :=
  min (byteLen pending) (byteLen stop - 1)

/-- The end of `size` bytes starts at a character and starts the stop. -/
def StartsAt (pending stop : Text) (size : Nat) : Prop :=
  ∃ tail, dropBytes (byteLen pending - size) pending = some tail ∧
    tail <+: stop

/--
Every length the search tries, that is, every one above which no end starts
the stop string, leaves a whole number of characters.
-/
def Sliceable (stops : List Text) (pending : Text) : Prop :=
  ∀ stop ∈ stops, ∀ size,
    0 < size → size ≤ reach pending stop →
      (∀ longer, size < longer → longer ≤ reach pending stop →
        ¬ StartsAt pending stop longer) →
          (dropBytes (byteLen pending - size) pending).isSome

section Search

variable {pending stop : Text}

theorem suffix_of_dropBytes
    {offset : Nat} {tail : Text}
    (cut : dropBytes offset pending = some tail) :
    tail <:+ pending := by
  obtain ⟨front, joined, -⟩ := (dropBytes_eq_some_iff _ _ _).mp cut
  exact ⟨front, joined⟩

/-- The end of a number of bytes has that number of bytes. -/
theorem byteLen_of_dropBytes
    {size : Nat} {tail : Text} (bound : size ≤ byteLen pending)
    (cut : dropBytes (byteLen pending - size) pending = some tail) :
    byteLen tail = size := by
  obtain ⟨front, rfl, length⟩ := (dropBytes_eq_some_iff _ _ _).mp cut
  rw [byteLen_append] at length bound
  omega

theorem dropBytes_of_suffix
    {tail : Text} (suffix : tail <:+ pending) :
    dropBytes (byteLen pending - byteLen tail) pending = some tail := by
  obtain ⟨front, rfl⟩ := suffix
  rw [byteLen_append, Nat.add_sub_cancel]
  exact dropBytes_append front tail

/-- What the search has found once it has tried every length up to `size`. -/
structure LongestUpTo
    (pending stop : Text) (size best : Nat) : Prop where
  bound : best ≤ size
  starts : 0 < best → StartsAt pending stop best
  longest : ∀ other ≤ size, 0 < other →
    StartsAt pending stop other → other ≤ best

theorem longestStart_spec
    {size best : Nat}
    (found : longestStart pending stop size = some best) :
    LongestUpTo pending stop size best := by
  induction size with
  | zero =>
      cases found
      exact ⟨le_rfl, fun positive => absurd positive (lt_irrefl 0),
        fun other bound _ _ => bound⟩
  | succ size induction =>
      rw [longestStart, Option.bind_eq_bind,
        Option.bind_eq_some_iff] at found
      obtain ⟨tail, cut, found⟩ := found
      split_ifs at found with starts
      · cases found
        exact
          ⟨le_rfl,
            fun _ => ⟨tail, cut, List.isPrefixOf_iff_prefix.mp starts⟩,
            fun other bound _ _ => bound⟩
      · obtain ⟨bound, startsAt, longest⟩ := induction found
        refine ⟨by omega, startsAt, ?_⟩
        intro other otherBound positive otherStarts
        rcases Nat.lt_or_ge other (size + 1) with less | same
        · exact longest other (by omega) positive otherStarts
        · obtain ⟨otherTail, otherCut, otherPrefix⟩ := otherStarts
          obtain rfl : other = size + 1 := by omega
          rw [cut] at otherCut
          cases otherCut
          exact (starts (List.isPrefixOf_iff_prefix.mpr otherPrefix)).elim

/-- The search has a result exactly when each length it tries is a cut. -/
theorem longestStart_isSome_iff (size : Nat) :
    (longestStart pending stop size).isSome ↔
      ∀ tried, 0 < tried → tried ≤ size →
        (∀ longer, tried < longer → longer ≤ size →
          ¬ StartsAt pending stop longer) →
            (dropBytes (byteLen pending - tried) pending).isSome := by
  induction size with
  | zero =>
      simp only [longestStart, Option.isSome_some, true_iff]
      intro tried positive bound
      omega
  | succ size induction =>
      cases cut : dropBytes (byteLen pending - (size + 1)) pending with
      | none =>
          simp only [longestStart, cut, Option.bind_eq_bind,
            Option.bind_none, Option.isSome_none, Bool.false_eq_true,
            false_iff, not_forall]
          refine ⟨size + 1, Nat.succ_pos size, le_rfl, ?_, ?_⟩
          · intro longer above below
            omega
          · simp [cut]
      | some tail =>
          rw [longestStart, cut, Option.bind_eq_bind, Option.bind_some]
          by_cases starts : tail <+: stop
          · rw [if_pos (List.isPrefixOf_iff_prefix.mpr starts)]
            simp only [Option.isSome_some, true_iff]
            intro tried positive bound longer
            rcases Nat.lt_or_ge tried (size + 1) with less | same
            · exact (longer (size + 1) less le_rfl
                ⟨tail, cut, starts⟩).elim
            · obtain rfl : tried = size + 1 := by omega
              simp [cut]
          · rw [if_neg (mt List.isPrefixOf_iff_prefix.mp starts),
              induction]
            constructor
            · intro smaller tried positive bound longer
              rcases Nat.lt_or_ge tried (size + 1) with less | same
              · exact smaller tried positive (by omega)
                  fun other above below =>
                    longer other above (by omega)
              · obtain rfl : tried = size + 1 := by omega
                simp [cut]
            · intro every tried positive bound longer
              refine every tried positive (by omega) ?_
              intro other above below
              rcases Nat.lt_or_ge other (size + 1) with less | same
              · exact longer other above (by omega)
              · obtain rfl : other = size + 1 := by omega
                rintro ⟨otherTail, otherCut, otherPrefix⟩
                rw [cut] at otherCut
                cases otherCut
                exact starts otherPrefix

end Search

/-! ## What is held back -/

/-- What the outer loop has found after the stop strings of `seen`. -/
structure HeldBytes
    (pending : Text) (seen : List Text) (hold : Nat) : Prop where
  starts : 0 < hold →
    ∃ stop ∈ seen, hold ≤ reach pending stop ∧
      StartsAt pending stop hold
  longest : ∀ stop ∈ seen, ∀ size ≤ reach pending stop, 0 < size →
    StartsAt pending stop size → size ≤ hold

theorem heldBytes_step
    {pending stop : Text} {seen : List Text} {hold size : Nat}
    (known : HeldBytes pending seen hold)
    (found : LongestUpTo pending stop (reach pending stop) size) :
    HeldBytes pending (seen ++ [stop]) (max hold size) := by
  refine ⟨?_, ?_⟩
  · intro positive
    rcases le_total hold size with smaller | larger
    · rw [max_eq_right smaller] at positive ⊢
      exact ⟨stop, by simp, found.bound, found.starts positive⟩
    · rw [max_eq_left larger] at positive ⊢
      obtain ⟨other, member, bound, starts⟩ := known.starts positive
      exact ⟨other, by simp [member], bound, starts⟩
  · intro other member length bound positive starts
    rcases List.mem_append.mp member with before | here
    · have := known.longest other before length bound positive starts
      omega
    · rw [List.mem_singleton] at here
      subst other
      have := found.longest length bound positive starts
      omega

theorem holdBytes_spec
    {pending : Text} {stops seen : List Text} {hold result : Nat}
    (known : HeldBytes pending seen hold)
    (found : holdBytes pending stops hold = some result) :
    HeldBytes pending (seen ++ stops) result := by
  induction stops generalizing seen hold with
  | nil =>
      cases found
      simpa using known
  | cons stop stops induction =>
      rw [holdBytes, Option.bind_eq_bind,
        Option.bind_eq_some_iff] at found
      obtain ⟨size, searched, found⟩ := found
      have next := heldBytes_step known (longestStart_spec searched)
      simpa using induction next found

theorem holdBytes_isSome_iff
    (pending : Text) (stops : List Text) (hold : Nat) :
    (holdBytes pending stops hold).isSome ↔
      ∀ stop ∈ stops,
        (longestStart pending stop (reach pending stop)).isSome := by
  induction stops generalizing hold with
  | nil => simp [holdBytes]
  | cons stop stops induction =>
      rw [holdBytes, Option.bind_eq_bind, ← reach]
      cases searched :
          longestStart pending stop (reach pending stop) with
      | none => simp [searched]
      | some size => simp [searched, induction]

/-- Every length is tried for some stop string exactly as `Sliceable` says. -/
theorem holdBytes_isSome_iff_sliceable
    (pending : Text) (stops : List Text) (hold : Nat) :
    (holdBytes pending stops hold).isSome ↔ Sliceable stops pending := by
  rw [holdBytes_isSome_iff]
  constructor
  · intro every stop member size
    exact (longestStart_isSome_iff _).mp (every stop member) size
  · intro sliceable stop member
    exact (longestStart_isSome_iff _).mpr (sliceable stop member)

/-- The end of the bytes held is the longest partial stop string. -/
theorem heldTail_of_heldBytes
    {pending keep : Text} {stops : List Text} {hold : Nat}
    (known : HeldBytes pending stops hold)
    (suffix : keep <:+ pending) (length : byteLen keep = hold) :
    HeldTail stops pending keep := by
  refine ⟨suffix, ?_, ?_⟩
  · by_cases empty : keep = []
    · exact Or.inl empty
    · right
      have positive : 0 < hold := by
        have := (byteLen_eq_zero_iff keep).not.mpr empty
        omega
      obtain ⟨stop, member, bound, tail, cut, starts⟩ :=
        known.starts positive
      have same : tail = keep := by
        have here := dropBytes_of_suffix suffix
        rw [length, cut] at here
        exact Option.some.inj here
      refine ⟨empty, stop, member, same ▸ starts, ?_⟩
      intro equal
      have limit : hold ≤ byteLen stop - 1 :=
        bound.trans (min_le_right _ _)
      rw [← equal, length] at limit
      omega
  · intro tail isPartial tailSuffix
    obtain ⟨nonempty, stop, member, starts, proper⟩ := isPartial
    have tailPositive : 0 < byteLen tail := by
      have := (byteLen_eq_zero_iff tail).not.mpr nonempty
      omega
    have inPending : byteLen tail ≤ byteLen pending := by
      obtain ⟨front, rfl⟩ := tailSuffix
      rw [byteLen_append]
      omega
    have inStop : byteLen tail < byteLen stop := by
      obtain ⟨rest, rfl⟩ := starts
      have restNonempty : rest ≠ [] := by
        rintro rfl
        exact proper (List.append_nil tail).symm
      have := (byteLen_eq_zero_iff rest).not.mpr restNonempty
      rw [byteLen_append]
      omega
    have bound :=
      known.longest stop member (byteLen tail)
        (le_min inPending (by omega)) tailPositive
        ⟨tail, dropBytes_of_suffix tailSuffix, starts⟩
    exact
      (suffix_length_le_of_byteLen_le tailSuffix suffix
        (by omega)).length_le

/-- The held bytes end on a character, so the last slice has a value. -/
theorem exists_keep
    {pending : Text} {stops : List Text} {hold : Nat}
    (known : HeldBytes pending stops hold) :
    ∃ keep, keep <:+ pending ∧ byteLen keep = hold := by
  rcases Nat.eq_zero_or_pos hold with rfl | positive
  · exact ⟨[], List.nil_suffix, rfl⟩
  · obtain ⟨stop, -, bound, keep, cut, -⟩ := known.starts positive
    exact ⟨keep, suffix_of_dropBytes cut,
      byteLen_of_dropBytes (bound.trans (min_le_left _ _)) cut⟩

theorem take_of_suffix
    {pending keep front : Text} (joined : front ++ keep = pending) :
    pending.take (pending.length - keep.length) = front := by
  rw [← joined, List.length_append, Nat.add_sub_cancel, List.take_left]

/-- Without a complete stop string, the filter holds the partial one. -/
theorem splitEmit_emit
    {pending : Text} {stops : List Text}
    (absent : earliest id (live stops) pending = none)
    (sliceable : Sliceable (live stops) pending) :
    splitEmit pending stops =
      some (.emit (release (live stops) pending)
        (hold (live stops) pending)) := by
  obtain ⟨bytes, found⟩ :=
    Option.isSome_iff_exists.mp
      ((holdBytes_isSome_iff_sliceable pending (live stops) 0).mpr
        sliceable)
  have start : HeldBytes pending [] 0 :=
    ⟨fun positive => absurd positive (lt_irrefl 0),
      fun stop member => absurd member List.not_mem_nil⟩
  have known := holdBytes_spec start found
  rw [List.nil_append] at known
  obtain ⟨keep, suffix, length⟩ := exists_keep known
  have keepEq :=
    (heldTail_of_heldBytes known suffix length).unique
      (hold_heldTail (live stops) pending)
  have joined := release_append_hold (live stops) pending
  rw [← keepEq] at joined ⊢
  simp only [splitEmit, absent, found, Option.bind_eq_bind,
    Option.bind_some]
  split_ifs with none all
  · have empty : keep = [] :=
      (byteLen_eq_zero_iff keep).mp (by omega)
    rw [empty, List.append_nil] at joined
    rw [joined, empty]
  · have whole : keep = pending := by
      refine suffix.eq_of_length ?_
      refine le_antisymm suffix.length_le ?_
      exact
        (suffix_length_le_of_byteLen_le List.suffix_rfl suffix
          (by omega)).length_le
    have front : release (live stops) pending = [] := by
      have lengths := congrArg List.length joined
      rw [List.length_append, whole] at lengths
      exact List.eq_nil_of_length_eq_zero (by omega)
    rw [front, whole]
  · rw [← length, dropBytes_of_suffix suffix, Option.bind_some,
      take_of_suffix joined]

/-- A complete stop string ends the text, the first one in the text. -/
theorem splitEmit_stop
    {pending matched : Text} {stops : List Text} {offset : Nat}
    (found : earliest id (live stops) pending = some (offset, matched)) :
    splitEmit pending stops =
      some (.stop (pending.take offset) matched) := by
  simp [splitEmit, found]

/--
The filter slices inside a character exactly when it finds no complete stop
string and tries a length that is no whole number of characters.
-/
theorem splitEmit_eq_none_iff (pending : Text) (stops : List Text) :
    splitEmit pending stops = none ↔
      earliest id (live stops) pending = none ∧
        ¬ Sliceable (live stops) pending := by
  cases found : earliest id (live stops) pending with
  | some best => simp [splitEmit, found]
  | none =>
      simp only [true_and]
      constructor
      · intro stuck sliceable
        rw [splitEmit_emit found sliceable] at stuck
        cases stuck
      · intro stuck
        rw [← holdBytes_isSome_iff_sliceable pending (live stops) 0,
          Bool.not_eq_true, Option.isSome_eq_false_iff,
          Option.isNone_iff_eq_none] at stuck
        simp [splitEmit, found, stuck]

/-- The filter can scan a text: it finds a stop string or can slice. -/
def Scannable (stops : List Text) (pending : Text) : Prop :=
  earliest id (live stops) pending = none →
    Sliceable (live stops) pending

/-- A stop string of one byte is never cut. -/
theorem scannable_of_byte
    {stops : List Text} (short : ∀ stop ∈ stops, byteLen stop ≤ 1)
    (pending : Text) :
    Scannable stops pending := by
  intro _ stop member size positive bound
  have limit := short stop (List.mem_filter.mp member).1
  rw [reach] at bound
  omega

theorem splitEmit_ne_none_iff (pending : Text) (stops : List Text) :
    splitEmit pending stops ≠ none ↔ Scannable stops pending := by
  rw [Ne, splitEmit_eq_none_iff, not_and_not_right, Scannable]

/-- What it means that the filter passes text on. -/
theorem splitEmit_eq_emit
    {pending emit keep : Text} {stops : List Text}
    (split : splitEmit pending stops = some (.emit emit keep)) :
    (∀ stop ∈ live stops, find stop pending = none) ∧
      emit ++ keep = pending ∧
      HeldTail (live stops) pending keep := by
  cases found : earliest id (live stops) pending with
  | some best =>
      rw [splitEmit_stop found] at split
      cases split
  | none =>
      have sliceable : Sliceable (live stops) pending := by
        refine (splitEmit_ne_none_iff pending stops).mp ?_ found
        rw [split]
        exact Option.some_ne_none _
      rw [splitEmit_emit found sliceable] at split
      cases split
      exact
        ⟨earliest_none id found, release_append_hold _ _,
          hold_heldTail _ _⟩

/-- What it means that the filter finds a stop string. -/
theorem splitEmit_eq_stop
    {pending before matched : Text} {stops : List Text}
    (split : splitEmit pending stops = some (.stop before matched)) :
    ∃ offset,
      before = pending.take offset ∧ matched ∈ live stops ∧
        find matched pending = some offset ∧
        ∀ stop ∈ live stops, ∀ other,
          find stop pending = some other → offset ≤ other := by
  cases found : earliest id (live stops) pending with
  | some best =>
      obtain ⟨offset, word⟩ := best
      rw [splitEmit_stop found] at split
      cases split
      obtain ⟨member, occurs, least⟩ := earliest_some id found
      exact ⟨offset, rfl, member, occurs, least⟩
  | none =>
      have sliceable : Sliceable (live stops) pending := by
        refine (splitEmit_ne_none_iff pending stops).mp ?_ found
        rw [split]
        exact Option.some_ne_none _
      rw [splitEmit_emit found sliceable] at split
      cases split

end Runa.Engine.StopFilter
