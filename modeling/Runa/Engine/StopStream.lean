import Runa.Engine.GenerateStream

/-!
# The stop filter over a stream

A generation puts its pieces through `split_emit` one after the other, each
behind the tail that was kept of the text before it, and ends at the first
stop string.  `feed_exact` says that over single-byte characters this is
exact: the stream ends with the first piece that completes a stop string, is
cut in front of the first occurrence, and never passes on a character that a
later match could need.

Over other text the search for the tail slices by bytes.  `splitEmit_safe_iff`
says which texts are sliced only between characters: the ones in which every
wide character near the end lies in a stop string that has begun.
-/

namespace Runa.Engine.StopStream

open Runa.Stream.Occurrence
open Runa.Stream.Utf8
open Runa.Engine.StopFilter
open Runa.Engine.Generate (Withheld withheld_start)

/-! ## Feeding pieces -/

/-- What the filter has passed on, and what it keeps or where it ended. -/
inductive Fed where
  | flowing (emitted pending : Text)
  | stopped (emitted before matched : Text)
deriving DecidableEq, Repr

/-- One piece behind the kept tail; an ended stream takes no more. -/
def feedPiece (stops : List Text) (fed : Fed) (piece : Text) :
    Option Fed :=
  match fed with
  | .flowing emitted pending =>
      match splitEmit (pending ++ piece) stops with
      | some (.emit emit keep) => some (.flowing (emitted ++ emit) keep)
      | some (.stop before matched) =>
          some (.stopped emitted before matched)
      | none => none
  | .stopped emitted before matched =>
      some (.stopped emitted before matched)

/-- No value where the program stops inside `split_emit`. -/
def feed (stops : List Text) (pieces : List Text) : Option Fed :=
  pieces.foldlM (feedPiece stops) (.flowing [] [])

/-- A stop string that is not empty stands in the text. -/
def HasStop (stops : List Text) (text : Text) : Prop :=
  ∃ stop ∈ live stops, stop <:+: text

section Occurrences

variable {stops : List Text} {stop text : Text}

theorem ne_nil_of_mem_live (member : stop ∈ live stops) : stop ≠ [] := by
  simpa using (List.mem_filter.mp member).2

theorem not_hasStop_iff :
    ¬ HasStop stops text ↔ ∀ stop ∈ live stops, find stop text = none := by
  constructor
  · intro absent stop member
    rw [← Option.not_isSome_iff_eq_none, find_isSome_iff]
    exact fun stands => absent ⟨stop, member, stands⟩
  · rintro absent ⟨stop, member, stands⟩
    rw [← find_isSome_iff, absent stop member] at stands
    cases stands

theorem HasStop.mono {longer : Text} (stands : HasStop stops text)
    (inside : text <:+: longer) : HasStop stops longer := by
  obtain ⟨stop, member, occurs⟩ := stands
  exact ⟨stop, member, occurs.trans inside⟩

theorem hasStop_iff_earliest :
    HasStop stops text ↔ earliest id (live stops) text ≠ none := by
  rw [← not_iff_not, not_hasStop_iff, not_not, earliest_eq_none_iff]
  rfl

/-- An occurrence has a first one, there or in front of it. -/
theorem find_le_of_prefix {offset : Nat}
    (stands : stop <+: text.drop offset) :
    ∃ first ≤ offset, find stop text = some first := by
  have found : (find stop text).isSome := by
    rw [find_isSome_iff]
    exact stands.isInfix.trans (List.drop_suffix offset text).isInfix
  obtain ⟨first, isFirst⟩ := Option.isSome_iff_exists.mp found
  refine ⟨first, ?_, isFirst⟩
  obtain ⟨-, -, least⟩ := (find_eq_some_iff _ _ _).mp isFirst
  by_contra behind
  exact least offset (by omega) stands

end Occurrences

/-! ## Where the filter slices between characters -/

/--
Every wide character with fewer than `|stop| - 1` bytes behind it lies in an
end of the text that begins the stop string.
-/
def Shielded (pending stop : Text) : Prop :=
  ∀ char back, char :: back <:+ pending → 1 < char.utf8Size →
    byteLen back + 1 < byteLen stop →
      ∃ tail, IsPartial [stop] tail ∧ tail <:+ pending ∧
        char :: back <:+ tail

/-- A stop string stands in the text, or each shields its wide characters. -/
def Safe (stops : List Text) (pending : Text) : Prop :=
  HasStop stops pending ∨ ∀ stop ∈ live stops, Shielded pending stop

section Slices

variable {pending stop tail back : Text} {char : Char} {size : Nat}

/-- No end of the text has a length inside a character. -/
theorem dropBytes_inside (suffix : char :: back <:+ pending)
    (above : byteLen back < size)
    (below : size < byteLen (char :: back)) :
    dropBytes (byteLen pending - size) pending = none := by
  rw [Option.eq_none_iff_forall_ne_some]
  intro tail cut
  have whole : byteLen (char :: back) ≤ byteLen pending := by
    obtain ⟨front, rfl⟩ := suffix
    rw [byteLen_append]
    omega
  have length := byteLen_of_dropBytes (by omega) cut
  have shorter : tail <:+ char :: back :=
    suffix_length_le_of_byteLen_le (suffix_of_dropBytes cut) suffix
      (by omega)
  rcases List.suffix_cons_iff.mp shorter with rfl | inner
  · omega
  · obtain ⟨front, rfl⟩ := inner
    rw [byteLen_append] at above
    omega

/-- A length at which no end of the text starts lies inside a character. -/
theorem exists_inside (bound : size ≤ byteLen pending)
    (cut : dropBytes (byteLen pending - size) pending = none) :
    ∃ char back, char :: back <:+ pending ∧ byteLen back < size ∧
      size < byteLen (char :: back) := by
  induction pending with
  | nil =>
      obtain rfl : size = 0 := by simpa using bound
      cases cut
  | cons first rest induction =>
      rw [byteLen_cons] at bound
      rcases lt_trichotomy (byteLen rest) size with above | rfl | below
      · refine ⟨first, rest, List.suffix_rfl, above, ?_⟩
        rw [byteLen_cons]
        apply lt_of_le_of_ne bound
        rintro rfl
        rw [byteLen_cons, Nat.sub_self] at cut
        cases cut
      · rw [byteLen_cons, Nat.add_sub_cancel] at cut
        have here := dropBytes_append [first] rest
        rw [List.singleton_append, byteLen_cons, byteLen_nil, Nat.add_zero,
          cut] at here
        cases here
      · have inner : dropBytes (byteLen rest - size) rest = none := by
          rw [Option.eq_none_iff_forall_ne_some] at cut ⊢
          intro tail found
          obtain ⟨front, rfl, length⟩ :=
            (dropBytes_eq_some_iff _ _ _).mp found
          apply cut tail
          refine (dropBytes_eq_some_iff _ _ _).mpr
            ⟨first :: front, rfl, ?_⟩
          simp only [byteLen_cons, byteLen_append] at length below ⊢
          omega
        obtain ⟨char, back, suffix, above, within⟩ :=
          induction below.le inner
        exact ⟨char, back, suffix.trans (List.suffix_cons _ _), above,
          within⟩

/-- An end of the text that begins the stop string is one the search finds. -/
theorem startsAt_of_isPartial (begins : IsPartial [stop] tail)
    (suffix : tail <:+ pending) :
    byteLen tail ≤ reach pending stop ∧
      StartsAt pending stop (byteLen tail) := by
  obtain ⟨-, word, member, starts, proper⟩ := begins
  rw [List.mem_singleton] at member
  subst member
  refine ⟨?_, tail, dropBytes_of_suffix suffix, starts⟩
  have inPending : byteLen tail ≤ byteLen pending := by
    obtain ⟨front, rfl⟩ := suffix
    rw [byteLen_append]
    omega
  have inStop : byteLen tail < byteLen word := by
    obtain ⟨rest, rfl⟩ := starts
    have nonempty : rest ≠ [] := by
      rintro rfl
      exact proper (List.append_nil tail).symm
    have := (byteLen_eq_zero_iff rest).not.mpr nonempty
    rw [byteLen_append]
    omega
  rw [reach]
  omega

/-- What the search finds begins the stop string. -/
theorem isPartial_of_startsAt (positive : 0 < size)
    (bound : size ≤ reach pending stop)
    (starts : StartsAt pending stop size) :
    ∃ tail, IsPartial [stop] tail ∧ tail <:+ pending ∧
      byteLen tail = size := by
  obtain ⟨tail, cut, begins⟩ := starts
  rw [reach] at bound
  have length := byteLen_of_dropBytes (by omega) cut
  refine ⟨tail, ⟨?_, stop, List.mem_singleton_self stop, begins, ?_⟩,
    suffix_of_dropBytes cut, length⟩
  · rintro rfl
    rw [byteLen_nil] at length
    omega
  · rintro rfl
    omega

/-- The search for one stop string tries only whole ends of the text. -/
theorem sliceable_iff_shielded :
    (∀ size, 0 < size → size ≤ reach pending stop →
        (∀ longer, size < longer → longer ≤ reach pending stop →
          ¬ StartsAt pending stop longer) →
        (dropBytes (byteLen pending - size) pending).isSome) ↔
      Shielded pending stop := by
  constructor
  · intro sliceable char back suffix wide near
    have inPending : byteLen (char :: back) ≤ byteLen pending := by
      obtain ⟨front, rfl⟩ := suffix
      rw [byteLen_append]
      omega
    rw [byteLen_cons] at inPending
    have cut := dropBytes_inside suffix (Nat.lt_succ_self (byteLen back))
      (by rw [byteLen_cons]; omega)
    -- the length one byte into the character is not tried
    have skipped :
        ∃ longer, byteLen back + 1 < longer ∧
          longer ≤ reach pending stop ∧ StartsAt pending stop longer := by
      by_contra none
      push Not at none
      have found := sliceable (byteLen back + 1) (by omega)
        (by rw [reach]; omega) none
      rw [cut] at found
      cases found
    obtain ⟨longer, above, bound, starts⟩ := skipped
    obtain ⟨tail, begins, tailSuffix, length⟩ :=
      isPartial_of_startsAt (by omega) bound starts
    refine ⟨tail, begins, tailSuffix, ?_⟩
    rcases List.suffix_or_suffix_of_suffix suffix tailSuffix with
      inside | shorter
    · exact inside
    · rcases List.suffix_cons_iff.mp shorter with rfl | inner
      · exact List.suffix_rfl
      · obtain ⟨front, rfl⟩ := inner
        rw [byteLen_append] at above
        omega
  · intro shielded size positive bound untried
    by_contra stuck
    rw [Option.not_isSome_iff_eq_none] at stuck
    have limit := bound
    rw [reach] at limit
    obtain ⟨char, back, suffix, above, below⟩ :=
      exists_inside (by omega) stuck
    have wide := below
    rw [byteLen_cons] at wide
    obtain ⟨tail, begins, tailSuffix, inside⟩ :=
      shielded char back suffix (by omega) (by omega)
    obtain ⟨tailBound, starts⟩ := startsAt_of_isPartial begins tailSuffix
    have longer : byteLen (char :: back) ≤ byteLen tail := by
      obtain ⟨front, rfl⟩ := inside
      rw [byteLen_append]
      omega
    exact untried (byteLen tail) (by omega) tailBound starts

theorem scannable_iff_safe (stops : List Text) :
    Scannable stops pending ↔ Safe stops pending := by
  rw [Scannable, Safe, hasStop_iff_earliest, imp_iff_not_or, Sliceable]
  apply or_congr Iff.rfl
  apply forall₂_congr
  intro stop member
  exact sliceable_iff_shielded

end Slices

/-! ## Runs of the filter -/

/-- The stop string that ended a text, in front of all others. -/
structure Ended
    (stops : List Text) (text emitted before matched : Text) : Prop where
  isStop : matched ∈ live stops
  cut : emitted ++ before ++ matched <+: text
  clean : ¬ HasStop stops (emitted ++ before)
  first : ∀ stop ∈ live stops, ∀ offset,
    stop <+: text.drop offset → (emitted ++ before).length ≤ offset

/-- What the filter has made of the pieces of a text. -/
inductive Exact (stops : List Text) (pieces : List Text) : Fed → Prop where
  | flowing {emitted pending : Text}
      (clean : ¬ HasStop stops pieces.flatten)
      (joined : emitted ++ pending = pieces.flatten)
      (final : ∀ more, ∀ stop ∈ live stops, ∀ offset,
        stop <+: (pieces.flatten ++ more).drop offset →
          emitted.length ≤ offset) :
      Exact stops pieces (.flowing emitted pending)
  | stopped {emitted before matched : Text}
      (earlier : List Text) (last : Text) (later : List Text)
      (order : pieces = earlier ++ last :: later)
      (clean : ¬ HasStop stops earlier.flatten)
      (ended : Ended stops (earlier ++ [last]).flatten emitted before
        matched) :
      Exact stops pieces (.stopped emitted before matched)

/-- Each text that the filter scans before a stop string is safe. -/
def RunSafe (stops : List Text) (pieces : List Text) : Prop :=
  ∀ earlier last later, pieces = earlier ++ last :: later →
    ¬ HasStop stops earlier.flatten →
      Safe stops (hold (live stops) earlier.flatten ++ last)

section Runs

variable {stops : List Text} {pieces : List Text} {piece : Text}
  {emitted pending before matched : Text}

theorem feed_concat :
    feed stops (pieces ++ [piece]) =
      (feed stops pieces).bind fun fed => feedPiece stops fed piece := by
  rw [feed, List.foldlM_append, ← feed]
  cases feed stops pieces with
  | none => rfl
  | some fed => simp

theorem flatten_concat :
    (pieces ++ [piece]).flatten = pieces.flatten ++ piece := by
  simp

/-- A flowing stream withholds what may become a stop string. -/
theorem withheld_of_feed
    (flows : feed stops pieces = some (.flowing emitted pending)) :
    Withheld stops emitted pending pieces.flatten := by
  induction pieces using List.reverseRecOn generalizing emitted pending with
  | nil =>
      cases flows
      exact withheld_start stops
  | append_singleton pieces piece induction =>
      rw [feed_concat, Option.bind_eq_some_iff] at flows
      obtain ⟨fed, earlier, flows⟩ := flows
      cases fed with
      | stopped emitted before matched => cases flows
      | flowing emitted' pending' =>
          have withheld := induction earlier
          rw [feedPiece] at flows
          rw [flatten_concat]
          cases split : splitEmit (pending' ++ piece) stops with
          | none =>
              rw [split] at flows
              cases flows
          | some outcome =>
              rw [split] at flows
              cases outcome with
              | emit emit keep =>
                  cases flows
                  exact withheld.emit split
              | stop before matched => cases flows

theorem Withheld.clean {whole : Text}
    (withheld : Withheld stops emitted pending whole) :
    ¬ HasStop stops whole :=
  not_hasStop_iff.mpr withheld.absent

/-- No stop string starts in what was passed on, however the text goes on. -/
theorem Withheld.final {whole : Text}
    (withheld : Withheld stops emitted pending whole) (more : Text)
    {stop : Text} (member : stop ∈ live stops) {offset : Nat}
    (stands : stop <+: (whole ++ more).drop offset) :
    emitted.length ≤ offset := by
  obtain ⟨first, before, isFirst⟩ :=
    find_le_of_prefix stands
  rw [withheld.find_shift member, Option.map_eq_some_iff] at isFirst
  obtain ⟨inner, -, rfl⟩ := isFirst
  omega

/-- The stop string at which a stream ends is the first of its text. -/
theorem ended_of_stop {whole : Text}
    (withheld : Withheld stops emitted pending whole)
    (split : splitEmit (pending ++ piece) stops =
      some (.stop before matched)) :
    Ended stops (whole ++ piece) emitted before matched := by
  obtain ⟨member, begins, found, least⟩ := withheld.stop split
  have cut := find_split found
  rw [← List.prefix_iff_eq_take.mp begins] at cut
  constructor
  · exact member
  · exact ⟨_, cut⟩
  · rintro ⟨stop, stopMember, stands⟩
    rw [← find_isSome_iff] at stands
    obtain ⟨offset, occurs⟩ := Option.isSome_iff_exists.mp stands
    have inside := find_bound occurs
    have later := find_append_some occurs
      (matched ++ (whole ++ piece).drop
        ((emitted ++ before).length + matched.length))
    rw [← List.append_assoc, cut] at later
    have bound := least stop stopMember offset later
    have nonempty :=
      List.length_pos_of_ne_nil (ne_nil_of_mem_live stopMember)
    omega
  · intro stop stopMember offset stands
    obtain ⟨first, inFront, isFirst⟩ :=
      find_le_of_prefix stands
    exact (least stop stopMember first isFirst).trans inFront

theorem Ended.hasStop {text : Text}
    (ended : Ended stops text emitted before matched) :
    HasStop stops text :=
  ⟨matched, ended.isStop,
    (List.suffix_append _ matched).isInfix.trans ended.cut.isInfix⟩

/-- An exact stream stays exact with one more piece. -/
theorem Exact.concat {fed next : Fed} (exact : Exact stops pieces fed)
    (earlier : feed stops pieces = some fed)
    (step : feedPiece stops fed piece = some next) :
    Exact stops (pieces ++ [piece]) next := by
  cases exact with
  | stopped front last later order clean ended =>
      cases step
      exact .stopped front last (later ++ [piece])
        (by rw [order, List.append_assoc, List.cons_append]) clean ended
  | @flowing emitted pending clean joined final =>
      have withheld := withheld_of_feed earlier
      rw [feedPiece] at step
      cases split : splitEmit (pending ++ piece) stops with
      | none =>
          rw [split] at step
          cases step
      | some outcome =>
          rw [split] at step
          cases outcome with
          | emit emit keep =>
              cases step
              have next := withheld.emit split
              rw [← flatten_concat] at next
              exact .flowing (Withheld.clean next) next.joined
                fun more stop member offset =>
                  Withheld.final next more member
          | stop before matched =>
              cases step
              apply Exact.stopped pieces piece [] rfl clean
              rw [flatten_concat]
              exact ended_of_stop withheld split

theorem exact_of_feed {fed : Fed} (feeds : feed stops pieces = some fed) :
    Exact stops pieces fed := by
  induction pieces using List.reverseRecOn generalizing fed with
  | nil =>
      cases feeds
      have start := withheld_start stops
      exact .flowing (Withheld.clean start) start.joined
        fun more stop member offset => Withheld.final start more member
  | append_singleton pieces piece induction =>
      rw [feed_concat, Option.bind_eq_some_iff] at feeds
      obtain ⟨fed, earlier, step⟩ := feeds
      exact (induction earlier).concat earlier step

/-! ## When a run slices between characters -/

theorem runSafe_concat_iff :
    RunSafe stops (pieces ++ [piece]) ↔
      RunSafe stops pieces ∧
        (¬ HasStop stops pieces.flatten →
          Safe stops (hold (live stops) pieces.flatten ++ piece)) := by
  constructor
  · intro safe
    constructor
    · intro earlier last later order
      exact safe earlier last (later ++ [piece])
        (by rw [order, List.append_assoc, List.cons_append])
    · exact safe pieces piece [] rfl
  · rintro ⟨before, here⟩ earlier last later order
    rcases List.eq_nil_or_concat later with rfl | ⟨front, end', rfl⟩
    · obtain ⟨rfl, same⟩ := List.append_inj' order rfl
      cases same
      exact here
    · rw [List.concat_eq_append, ← List.cons_append,
        ← List.append_assoc] at order
      obtain ⟨rfl, -⟩ := List.append_inj' order rfl
      exact before earlier last front rfl

theorem feedPiece_ne_none_iff :
    feedPiece stops (.flowing emitted pending) piece ≠ none ↔
      Safe stops (pending ++ piece) := by
  rw [← scannable_iff_safe, ← splitEmit_ne_none_iff, feedPiece]
  cases splitEmit (pending ++ piece) stops with
  | none => simp
  | some outcome => cases outcome <;> simp

theorem feed_ne_none_iff (stops : List Text) (pieces : List Text) :
    feed stops pieces ≠ none ↔ RunSafe stops pieces := by
  induction pieces using List.reverseRecOn with
  | nil =>
      apply iff_of_true (Option.some_ne_none _)
      intro earlier last later order
      simp at order
  | append_singleton pieces piece induction =>
      rw [runSafe_concat_iff, ← induction, feed_concat]
      cases earlier : feed stops pieces with
      | none => simp
      | some fed =>
          rw [Option.bind_some]
          cases fed with
          | flowing emitted pending =>
              have withheld := withheld_of_feed earlier
              have kept := withheld.held.unique (hold_heldTail _ _)
              rw [feedPiece_ne_none_iff, kept]
              simp [Withheld.clean withheld]
          | stopped emitted before matched =>
              cases exact_of_feed earlier with
              | stopped front last later order clean ended =>
                  have stands : HasStop stops pieces.flatten := by
                    apply ended.hasStop.mono
                    rw [order]
                    refine ⟨[], later.flatten, ?_⟩
                    simp
                  simp [feedPiece, stands]

end Runs

/--
The filter slices a text between characters exactly if the text is safe, and
a run does so exactly if every text it scans is.
-/
theorem splitEmit_safe_iff (stops : List Text) :
    (∀ pending,
        splitEmit pending stops ≠ none ↔ Safe stops pending) ∧
      ∀ pieces, feed stops pieces ≠ none ↔ RunSafe stops pieces := by
  constructor
  · intro pending
    rw [splitEmit_ne_none_iff, scannable_iff_safe]
  · exact feed_ne_none_iff stops

/-- One accented letter against a stop string of three bytes. -/
theorem splitEmit_slices_accent :
    splitEmit ['é'] ["###".toList] = none ∧
      feed ["###".toList] [['é']] = none := by
  decide

/-! ## Single-byte text -/

/-- The text has single-byte characters only. -/
def SingleByte (text : Text) : Prop :=
  ∀ char ∈ text, char.utf8Size = 1

theorem safe_of_singleByte {stops : List Text} {pending : Text}
    (single : SingleByte pending) : Safe stops pending := by
  right
  intro stop member char back suffix wide
  have narrow := single char (suffix.subset List.mem_cons_self)
  omega

theorem runSafe_of_singleByte {stops : List Text} {pieces : List Text}
    (single : ∀ piece ∈ pieces, SingleByte piece) :
    RunSafe stops pieces := by
  rintro earlier last later rfl clean
  apply safe_of_singleByte
  intro char member
  rcases List.mem_append.mp member with held | here
  · obtain ⟨piece, inside, within⟩ := List.mem_flatten.mp
      ((hold_heldTail (live stops) earlier.flatten).suffix.subset held)
    exact single piece (List.mem_append_left _ inside) char within
  · exact single last (by simp) char here

/-- The streaming filter is exact on single-byte text. -/
theorem feed_exact {stops : List Text} {pieces : List Text}
    (single : ∀ piece ∈ pieces, SingleByte piece) :
    ∃ fed, feed stops pieces = some fed ∧ Exact stops pieces fed := by
  obtain ⟨fed, feeds⟩ := Option.ne_none_iff_exists'.mp
    ((feed_ne_none_iff stops pieces).mpr (runSafe_of_singleByte single))
  exact ⟨fed, feeds, exact_of_feed feeds⟩

/-- A stop string over three pieces, behind a shorter partial one. -/
theorem feed_exact_pieces :
    Exact ["</s>".toList, "s>!".toList]
      ["a<".toList, "/".toList, "s>!".toList, "b".toList]
      (.stopped "a".toList [] "</s>".toList) := by
  have single :
      ∀ piece ∈ ["a<".toList, "/".toList, "s>!".toList, "b".toList],
        SingleByte piece := by
    have each :
        ["a<".toList, "/".toList, "s>!".toList, "b".toList].all
          (fun piece => piece.all fun char => char.utf8Size == 1) = true := by
      decide
    simp only [List.all_eq_true, beq_iff_eq] at each
    exact each
  obtain ⟨fed, feeds, exact⟩ :=
    @feed_exact ["</s>".toList, "s>!".toList] _ single
  have ends :
      feed ["</s>".toList, "s>!".toList]
          ["a<".toList, "/".toList, "s>!".toList, "b".toList] =
        some (.stopped "a".toList [] "</s>".toList) := by
    decide
  rw [ends] at feeds
  cases feeds
  exact exact

end Runa.Engine.StopStream
