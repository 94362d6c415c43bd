import Runa.Stream.Occurrence

/-!
# Streaming splitters driven by delimiters

A splitter reads a text in chunks and is at any time in one of its modes.
Each mode watches for a few delimiters, and each delimiter leads to another
mode.  Text between delimiters is passed on, labelled with the mode it was
read in.  A fixed marker directly behind a delimiter is swallowed with it,
but only when it has already arrived: this is the one place where the
behaviour of the machine depends on the chunks.

Runs are described by relations.  `Drains` crosses every complete delimiter
of a text, `Feeds` is the reading of one chunk, with the end that may still
grow into a delimiter held back, and `FeedsAll` is the reading of a list of
chunks.  The results are conservation (`FeedsAll.spelling`), the hold-back
invariant (`FeedsAll.standing`), and the exact condition for the output to be
independent of the chunks (`chunkIndependent_iff`).
-/

namespace Runa.Stream

open Runa.Stream.Occurrence

universe u v w

/--
The delimiters of every mode, with the conditions that keep two of them from
overlapping: they start with one guard symbol which does not recur in them,
and none is a prefix of another or of the marker.
-/
structure Splitter (Symbol : Type u) (Mode : Type v) where
  exits : Mode → List (List Symbol × Mode)
  marker : List Symbol
  guard : Symbol
  guarded : ∀ mode, ∀ exit ∈ exits mode, Guarded guard exit.1
  prefixFree :
    ∀ mode, ∀ left ∈ exits mode, ∀ right ∈ exits mode,
      left.1 <+: right.1 → left = right
  markerGuarded : Guarded guard marker
  markerApart :
    ∀ mode, ∀ exit ∈ exits mode,
      ¬ exit.1 <+: marker ∧ ¬ marker <+: exit.1

namespace Splitter

/-- What a run does, in order: pass text on, or cross a delimiter. -/
inductive Entry (Symbol : Type u) (Mode : Type v) where
  | piece (mode : Mode) (text : List Symbol)
  | tag (word : List Symbol) (target : Mode) (marked : Bool)

variable {Symbol : Type u} {Mode : Type v} [DecidableEq Symbol]

/-- Remove the marker from the front of a text, if it is there. -/
def strip (marker text : List Symbol) : List Symbol :=
  if marker.isPrefixOf text then text.drop marker.length else text

theorem strip_of_marked
    {marker text : List Symbol} (marked : marker <+: text) :
    strip marker text = text.drop marker.length := by
  simp [strip, List.isPrefixOf_iff_prefix, marked]

theorem strip_of_unmarked
    {marker text : List Symbol} (unmarked : ¬ marker <+: text) :
    strip marker text = text := by
  simp [strip, List.isPrefixOf_iff_prefix, unmarked]

theorem strip_length_le (marker text : List Symbol) :
    (strip marker text).length ≤ text.length := by
  rw [strip]
  split
  · simp
  · exact le_rfl

/-- A piece entry, unless there is no text. -/
def pieceOf (mode : Mode) (text : List Symbol) :
    List (Entry Symbol Mode) :=
  if text = [] then [] else [.piece mode text]

variable (splitter : Splitter Symbol Mode)

/-- The words watched for in a mode. -/
def words (mode : Mode) : List (List Symbol) :=
  (splitter.exits mode).map Prod.fst

/-- The first delimiter of the mode in a text. -/
def leave (mode : Mode) (text : List Symbol) :
    Option (Nat × (List Symbol × Mode)) :=
  earliest Prod.fst (splitter.exits mode) text

variable {splitter}

theorem leave_none
    {mode : Mode} {text : List Symbol}
    (absent : splitter.leave mode text = none) :
    ∀ word ∈ splitter.words mode, find word text = none := by
  intro word member
  obtain ⟨exit, exitMember, rfl⟩ := List.mem_map.mp member
  exact earliest_none Prod.fst absent exit exitMember

/-- `leave` is determined by a least occurrence of one of the exits. -/
theorem leave_eq_some
    {mode : Mode} {text : List Symbol}
    {offset : Nat} {exit : List Symbol × Mode}
    (member : exit ∈ splitter.exits mode)
    (found : find exit.1 text = some offset)
    (least :
      ∀ other ∈ splitter.exits mode, ∀ otherOffset,
        find other.1 text = some otherOffset → offset ≤ otherOffset) :
    splitter.leave mode text = some (offset, exit) := by
  cases left : splitter.leave mode text with
  | none =>
      have absent := earliest_none Prod.fst left exit member
      rw [found] at absent
      cases absent
  | some best =>
      obtain ⟨bestOffset, best⟩ := best
      obtain ⟨bestMember, bestFound, bestLeast⟩ :=
        earliest_some Prod.fst left
      have offsetEq : bestOffset = offset :=
        le_antisymm (bestLeast exit member offset found)
          (least best bestMember bestOffset bestFound)
      subst bestOffset
      obtain ⟨-, occurs, -⟩ := (find_eq_some_iff _ _ _).mp found
      obtain ⟨-, bestOccurs, -⟩ := (find_eq_some_iff _ _ _).mp bestFound
      have same : best = exit := by
        rcases List.prefix_or_prefix_of_prefix bestOccurs occurs with
          shorter | longer
        · exact splitter.prefixFree mode best bestMember exit member shorter
        · exact
            (splitter.prefixFree mode exit member best bestMember
              longer).symm
      rw [same]

/-- Everything `leave` says about a delimiter it finds. -/
theorem leave_some
    {mode : Mode} {text : List Symbol}
    {offset : Nat} {exit : List Symbol × Mode}
    (left : splitter.leave mode text = some (offset, exit)) :
    exit ∈ splitter.exits mode ∧
      find exit.1 text = some offset ∧
      ∀ other ∈ splitter.exits mode, ∀ otherOffset,
        find other.1 text = some otherOffset → offset ≤ otherOffset :=
  earliest_some Prod.fst left

/-- The text in front of the delimiter, the delimiter, and the rest. -/
theorem leave_split
    {mode : Mode} {text : List Symbol}
    {offset : Nat} {exit : List Symbol × Mode}
    (left : splitter.leave mode text = some (offset, exit)) :
    text.take offset ++ exit.1 ++ text.drop (offset + exit.1.length) =
      text :=
  find_split (leave_some left).2.1

theorem leave_bound
    {mode : Mode} {text : List Symbol}
    {offset : Nat} {exit : List Symbol × Mode}
    (left : splitter.leave mode text = some (offset, exit)) :
    offset + exit.1.length ≤ text.length :=
  find_bound (leave_some left).2.1

/--
A delimiter that has been found stays the first one however the text
continues: an earlier one would have to reach across it.
-/
theorem leave_append_some
    {mode : Mode} {text : List Symbol}
    {offset : Nat} {exit : List Symbol × Mode}
    (left : splitter.leave mode text = some (offset, exit))
    (more : List Symbol) :
    splitter.leave mode (text ++ more) = some (offset, exit) := by
  obtain ⟨member, found, least⟩ := leave_some left
  refine leave_eq_some member (find_append_some found more) ?_
  intro other otherMember otherOffset otherFound
  by_contra smaller
  have early : otherOffset < offset := by omega
  have bound := leave_bound left
  have otherGuarded := splitter.guarded mode other otherMember
  have exitGuarded := splitter.guarded mode exit member
  obtain ⟨-, otherOccurs, otherLeast⟩ :=
    (find_eq_some_iff _ _ _).mp otherFound
  rcases le_or_gt (otherOffset + other.1.length) text.length with
    inside | across
  · have inText : find other.1 text = some otherOffset := by
      refine (find_eq_some_iff _ _ _).mpr
        ⟨by omega, prefix_drop_of_append otherOccurs inside, ?_⟩
      intro earlier smaller occurs
      refine otherLeast earlier smaller ?_
      rw [List.drop_append_of_le_length (by omega)]
      exact occurs.trans (List.prefix_append _ _)
    have := least other otherMember otherOffset inText
    omega
  · obtain ⟨tail, otherTail⟩ := otherOccurs
    obtain ⟨-, exitOccurs, -⟩ :=
      (find_eq_some_iff _ _ _).mp (find_append_some found more)
    have exitPositive : 0 < exit.1.length :=
      List.length_pos_of_ne_nil exitGuarded.ne_nil
    have overlap :
        exit.1 <+: (other.1 ++ tail).drop (offset - otherOffset) := by
      rw [otherTail, List.drop_drop]
      have offsets : otherOffset + (offset - otherOffset) = offset := by
        omega
      rw [offsets]
      exact exitOccurs
    exact otherGuarded.not_prefix_drop exitGuarded
      (by omega) (by omega) overlap

/-- A delimiter is found as soon as its own text is complete. -/
theorem leave_take
    {mode : Mode} {text : List Symbol}
    {offset : Nat} {exit : List Symbol × Mode}
    (left : splitter.leave mode text = some (offset, exit)) :
    splitter.leave mode (text.take offset ++ exit.1) =
      some (offset, exit) := by
  obtain ⟨member, found, least⟩ := leave_some left
  have bound := leave_bound left
  have split := leave_split left
  have frontLength : (text.take offset).length = offset := by
    rw [List.length_take]
    omega
  have foundFront :
      ∀ (word : List Symbol) (place : Nat),
        find word (text.take offset ++ exit.1) = some place →
          find word text = some place := by
    intro word place foundWord
    have moved := find_append_some foundWord
      (text.drop (offset + exit.1.length))
    rwa [split] at moved
  have exitFound :
      find exit.1 (text.take offset ++ exit.1) = some offset := by
    refine (find_eq_some_iff _ _ _).mpr ⟨?_, ?_, ?_⟩
    · rw [List.length_append]
      omega
    · have behind :
          (text.take offset ++ exit.1).drop offset = exit.1 :=
        List.drop_left' frontLength
      rw [behind]
    · intro earlier smaller occurs
      obtain ⟨-, -, leastExit⟩ := (find_eq_some_iff _ _ _).mp found
      refine leastExit earlier smaller ?_
      rw [← split, List.drop_append_of_le_length
        (by rw [List.length_append]; omega)]
      exact occurs.trans (List.prefix_append _ _)
  refine leave_eq_some member exitFound ?_
  intro other otherMember otherOffset otherFound
  exact least other otherMember otherOffset
    (foundFront other.1 otherOffset otherFound)

/-! ## Crossing every complete delimiter -/

variable (splitter)

/--
`Drains mode text log target rest`: starting in `mode`, the delimiters of
`text` are crossed one after the other, which logs `log` and ends in `target`
with `rest`, where no further delimiter is complete.
-/
inductive Drains :
    Mode → List Symbol → List (Entry Symbol Mode) →
      Mode → List Symbol → Prop where
  | done {mode : Mode} {text : List Symbol}
      (absent : splitter.leave mode text = none) :
      Drains mode text [] mode text
  | cross {mode target final : Mode} {text word rest : List Symbol}
      {offset : Nat} {log : List (Entry Symbol Mode)}
      (left : splitter.leave mode text = some (offset, (word, target)))
      (tail :
        Drains target
          (strip splitter.marker (text.drop (offset + word.length)))
          log final rest) :
      Drains mode text
        (pieceOf mode (text.take offset) ++
          .tag word target
            (splitter.marker.isPrefixOf
              (text.drop (offset + word.length))) :: log)
        final rest

variable {splitter}

/-- Every text can be drained: each crossing shortens it. -/
theorem drains_exists
    (splitter : Splitter Symbol Mode)
    (mode : Mode) (text : List Symbol) :
    ∃ log final rest, splitter.Drains mode text log final rest := by
  induction length : text.length using Nat.strong_induction_on
    generalizing mode text with
  | _ size induction =>
      cases left : splitter.leave mode text with
      | none => exact ⟨[], mode, text, .done left⟩
      | some best =>
          obtain ⟨offset, word, target⟩ := best
          have bound : offset + word.length ≤ text.length :=
            leave_bound left
          have positive : 0 < word.length :=
            List.length_pos_of_ne_nil
              (splitter.guarded mode _ (leave_some left).1).ne_nil
          have shorter :
              (strip splitter.marker
                (text.drop (offset + word.length))).length < size := by
            refine lt_of_le_of_lt (strip_length_le _ _) ?_
            rw [List.length_drop]
            omega
          obtain ⟨log, final, rest, tail⟩ :=
            induction _ shorter target _ rfl
          exact ⟨_, final, rest, .cross left tail⟩

theorem Drains.unique
    {mode final final' : Mode} {text rest rest' : List Symbol}
    {log log' : List (Entry Symbol Mode)}
    (first : splitter.Drains mode text log final rest)
    (second : splitter.Drains mode text log' final' rest') :
    log = log' ∧ final = final' ∧ rest = rest' := by
  induction first generalizing log' final' rest' with
  | done absent =>
      cases second with
      | done _ => exact ⟨rfl, rfl, rfl⟩
      | cross left _ =>
          rw [absent] at left
          cases left
  | cross left _ induction =>
      cases second with
      | done absent =>
          rw [absent] at left
          cases left
      | cross left' tail' =>
          rw [left] at left'
          cases left'
          obtain ⟨rfl, rfl, rfl⟩ := induction tail'
          exact ⟨rfl, rfl, rfl⟩

theorem Drains.absent
    {mode final : Mode} {text rest : List Symbol}
    {log : List (Entry Symbol Mode)}
    (drains : splitter.Drains mode text log final rest) :
    splitter.leave final rest = none := by
  induction drains with
  | done absent => exact absent
  | cross _ _ induction => exact induction

/-! ## Reading in chunks -/

variable (splitter)

/--
Reading one chunk behind a held text: an empty chunk does nothing, any other
one is drained together with the held text, and what remains is passed on up
to the end that may still grow into a delimiter.
-/
inductive Feeds :
    Mode × List Symbol → List Symbol → List (Entry Symbol Mode) →
      Mode × List Symbol → Prop where
  | empty (state : Mode × List Symbol) :
      Feeds state [] [] state
  | chunk {mode final : Mode} {held chunk rest : List Symbol}
      {log : List (Entry Symbol Mode)}
      (nonempty : chunk ≠ [])
      (drains : splitter.Drains mode (held ++ chunk) log final rest) :
      Feeds (mode, held) chunk
        (log ++ pieceOf final (release (splitter.words final) rest))
        (final, hold (splitter.words final) rest)

/-- Reading a list of chunks, in order. -/
inductive FeedsAll :
    Mode × List Symbol → List (List Symbol) →
      List (Entry Symbol Mode) → Mode × List Symbol → Prop where
  | nil (state : Mode × List Symbol) :
      FeedsAll state [] [] state
  | cons {start middle final : Mode × List Symbol}
      {chunk : List Symbol} {chunks : List (List Symbol)}
      {log logs : List (Entry Symbol Mode)}
      (head : Feeds splitter start chunk log middle)
      (tail : FeedsAll middle chunks logs final) :
      FeedsAll start (chunk :: chunks) (log ++ logs) final

variable {splitter}

theorem feeds_exists
    (splitter : Splitter Symbol Mode)
    (state : Mode × List Symbol) (chunk : List Symbol) :
    ∃ log final, splitter.Feeds state chunk log final := by
  obtain ⟨mode, held⟩ := state
  by_cases empty : chunk = []
  · subst chunk
    exact ⟨[], (mode, held), .empty _⟩
  · obtain ⟨log, final, rest, drains⟩ :=
      drains_exists splitter mode (held ++ chunk)
    exact ⟨_, _, .chunk empty drains⟩

theorem feedsAll_exists
    (splitter : Splitter Symbol Mode)
    (state : Mode × List Symbol) (chunks : List (List Symbol)) :
    ∃ log final, splitter.FeedsAll state chunks log final := by
  induction chunks generalizing state with
  | nil => exact ⟨[], state, .nil state⟩
  | cons chunk chunks induction =>
      obtain ⟨log, middle, head⟩ :=
        feeds_exists splitter state chunk
      obtain ⟨logs, final, tail⟩ := induction middle
      exact ⟨_, final, .cons head tail⟩

/-- Reading one more chunk behind a list of chunks. -/
theorem FeedsAll.snoc
    {start middle final : Mode × List Symbol}
    {chunks : List (List Symbol)} {chunk : List Symbol}
    {log more : List (Entry Symbol Mode)}
    (feeds : splitter.FeedsAll start chunks log middle)
    (last : splitter.Feeds middle chunk more final) :
    splitter.FeedsAll start (chunks ++ [chunk]) (log ++ more) final := by
  induction feeds with
  | nil => simpa using FeedsAll.cons last (.nil final)
  | cons head _ induction =>
      rw [List.cons_append, List.append_assoc]
      exact .cons head (induction last)

theorem Feeds.unique
    {start final final' : Mode × List Symbol} {chunk : List Symbol}
    {log log' : List (Entry Symbol Mode)}
    (first : splitter.Feeds start chunk log final)
    (second : splitter.Feeds start chunk log' final') :
    log = log' ∧ final = final' := by
  cases first with
  | empty =>
      cases second with
      | empty => exact ⟨rfl, rfl⟩
      | chunk nonempty _ => exact (nonempty rfl).elim
  | chunk nonempty drains =>
      cases second with
      | empty => exact (nonempty rfl).elim
      | chunk _ drains' =>
          obtain ⟨rfl, rfl, rfl⟩ := drains.unique drains'
          exact ⟨rfl, rfl⟩

theorem FeedsAll.unique
    {start final final' : Mode × List Symbol}
    {chunks : List (List Symbol)}
    {log log' : List (Entry Symbol Mode)}
    (first : splitter.FeedsAll start chunks log final)
    (second : splitter.FeedsAll start chunks log' final') :
    log = log' ∧ final = final' := by
  induction first generalizing log' final' with
  | nil =>
      cases second with
      | nil => exact ⟨rfl, rfl⟩
  | cons head _ induction =>
      cases second with
      | cons head' tail' =>
          obtain ⟨rfl, rfl⟩ := head.unique head'
          obtain ⟨rfl, rfl⟩ := induction tail'
          exact ⟨rfl, rfl⟩

/-! ## Conservation -/

/-- The text an entry accounts for; `marker` is what a marked tag swallows. -/
def Entry.spelling (marker : List Symbol) :
    Entry Symbol Mode → List Symbol
  | .piece _ text => text
  | .tag word _ marked => word ++ if marked then marker else []

/-- The text a log accounts for. -/
def spelling (marker : List Symbol) (log : List (Entry Symbol Mode)) :
    List Symbol :=
  log.flatMap (Entry.spelling marker)

omit [DecidableEq Symbol] in
@[simp]
theorem spelling_nil (marker : List Symbol) :
    spelling marker ([] : List (Entry Symbol Mode)) = [] := rfl

omit [DecidableEq Symbol] in
@[simp]
theorem spelling_append
    (marker : List Symbol) (left right : List (Entry Symbol Mode)) :
    spelling marker (left ++ right) =
      spelling marker left ++ spelling marker right := by
  simp [spelling]

omit [DecidableEq Symbol] in
@[simp]
theorem spelling_tag
    (marker word : List Symbol) (target : Mode) (marked : Bool)
    (log : List (Entry Symbol Mode)) :
    spelling marker (.tag word target marked :: log) =
      word ++ (if marked then marker else []) ++ spelling marker log := by
  simp [spelling, Entry.spelling]

omit [DecidableEq Symbol] in
@[simp]
theorem spelling_pieceOf
    (marker : List Symbol) (mode : Mode) (text : List Symbol) :
    spelling marker (pieceOf mode text) = text := by
  by_cases empty : text = []
  · simp [pieceOf, empty]
  · simp [pieceOf, empty, spelling, Entry.spelling]

theorem marker_append_strip (marker text : List Symbol) :
    (if marker.isPrefixOf text then marker else []) ++
        strip marker text = text := by
  by_cases marked : marker <+: text
  · obtain ⟨rest, rfl⟩ := marked
    simp [strip, List.isPrefixOf_iff_prefix]
  · simp [strip, List.isPrefixOf_iff_prefix, marked]

theorem Drains.spelling
    {mode final : Mode} {text rest : List Symbol}
    {log : List (Entry Symbol Mode)}
    (drains : splitter.Drains mode text log final rest) :
    Splitter.spelling splitter.marker log ++ rest = text := by
  induction drains with
  | done => rfl
  | @cross mode target final text word rest offset log left _ induction =>
      rw [spelling_append, spelling_pieceOf, spelling_tag]
      simp only [List.append_assoc]
      rw [induction, marker_append_strip, ← List.append_assoc]
      exact leave_split left

/-- Reading one chunk loses, repeats and reorders nothing. -/
theorem Feeds.spelling
    {start final : Mode × List Symbol} {chunk : List Symbol}
    {log : List (Entry Symbol Mode)}
    (feeds : splitter.Feeds start chunk log final) :
    Splitter.spelling splitter.marker log ++ final.2 =
      start.2 ++ chunk := by
  cases feeds with
  | empty => simp
  | chunk _ drains =>
      rw [spelling_append, spelling_pieceOf, List.append_assoc,
        release_append_hold]
      exact drains.spelling

/-- Reading chunks loses, repeats and reorders nothing. -/
theorem FeedsAll.spelling
    {start final : Mode × List Symbol} {chunks : List (List Symbol)}
    {log : List (Entry Symbol Mode)}
    (feeds : splitter.FeedsAll start chunks log final) :
    Splitter.spelling splitter.marker log ++ final.2 =
      start.2 ++ chunks.flatten := by
  induction feeds with
  | nil => simp
  | cons head _ induction =>
      rw [spelling_append, List.append_assoc, induction,
        ← List.append_assoc, head.spelling, List.append_assoc,
        List.flatten_cons]

/-! ## The modes a log passes through -/

variable (splitter)

/-- The log is a walk along the exits, every piece labelled by its mode. -/
inductive Walk : Mode → List (Entry Symbol Mode) → Mode → Prop where
  | nil (mode : Mode) : Walk mode [] mode
  | piece {mode final : Mode} {text : List Symbol}
      {log : List (Entry Symbol Mode)}
      (nonempty : text ≠ [])
      (tail : Walk mode log final) :
      Walk mode (.piece mode text :: log) final
  | tag {mode target final : Mode} {word : List Symbol} {marked : Bool}
      {log : List (Entry Symbol Mode)}
      (member : (word, target) ∈ splitter.exits mode)
      (tail : Walk target log final) :
      Walk mode (.tag word target marked :: log) final

variable {splitter}

omit [DecidableEq Symbol] in
theorem Walk.append
    {first middle last : Mode} {left right : List (Entry Symbol Mode)}
    (leftWalk : splitter.Walk first left middle)
    (rightWalk : splitter.Walk middle right last) :
    splitter.Walk first (left ++ right) last := by
  induction leftWalk with
  | nil => exact rightWalk
  | piece nonempty _ induction =>
      exact .piece nonempty (induction rightWalk)
  | tag member _ induction => exact .tag member (induction rightWalk)

omit [DecidableEq Symbol] in
/-- The end of a walk is a walk from where its front led. -/
theorem Walk.of_append
    {first middle last : Mode} {left right : List (Entry Symbol Mode)}
    (leftWalk : splitter.Walk first left middle)
    (whole : splitter.Walk first (left ++ right) last) :
    splitter.Walk middle right last := by
  induction leftWalk with
  | nil => exact whole
  | piece _ _ induction =>
      cases whole with
      | piece _ tail => exact induction tail
  | tag _ _ induction =>
      cases whole with
      | tag _ tail => exact induction tail

omit [DecidableEq Symbol] in
theorem walk_pieceOf (mode : Mode) (text : List Symbol) :
    splitter.Walk mode (pieceOf mode text) mode := by
  by_cases empty : text = []
  · rw [pieceOf, if_pos empty]
    exact .nil mode
  · rw [pieceOf, if_neg empty]
    exact .piece empty (.nil mode)

theorem Drains.walk
    {mode final : Mode} {text rest : List Symbol}
    {log : List (Entry Symbol Mode)}
    (drains : splitter.Drains mode text log final rest) :
    splitter.Walk mode log final := by
  induction drains with
  | done => exact .nil _
  | cross left _ induction =>
      exact (walk_pieceOf _ _).append
        (.tag (leave_some left).1 induction)

theorem Feeds.walk
    {start final : Mode × List Symbol} {chunk : List Symbol}
    {log : List (Entry Symbol Mode)}
    (feeds : splitter.Feeds start chunk log final) :
    splitter.Walk start.1 log final.1 := by
  cases feeds with
  | empty => exact .nil _
  | chunk _ drains => exact drains.walk.append (walk_pieceOf _ _)

theorem FeedsAll.walk
    {start final : Mode × List Symbol} {chunks : List (List Symbol)}
    {log : List (Entry Symbol Mode)}
    (feeds : splitter.FeedsAll start chunks log final) :
    splitter.Walk start.1 log final.1 := by
  induction feeds with
  | nil => exact .nil _
  | cons head _ induction => exact head.walk.append induction

/-! ## What is held back -/

/-- Follow the text passed on since the last delimiter through one entry. -/
def Entry.extend (text : List Symbol) :
    Entry Symbol Mode → List Symbol
  | .piece _ more => text ++ more
  | .tag _ _ _ => []

/-- The text passed on since the last delimiter of a log. -/
def sinceTag (log : List (Entry Symbol Mode)) : List Symbol :=
  log.foldl Entry.extend []

omit [DecidableEq Symbol] in
@[simp]
theorem sinceTag_append_pieceOf
    (log : List (Entry Symbol Mode)) (mode : Mode) (text : List Symbol) :
    sinceTag (log ++ pieceOf mode text) = sinceTag log ++ text := by
  by_cases empty : text = []
  · simp [pieceOf, empty]
  · simp [pieceOf, empty, sinceTag, Entry.extend]

omit [DecidableEq Symbol] in
@[simp]
theorem sinceTag_append_tag
    (log rest : List (Entry Symbol Mode))
    (word : List Symbol) (target : Mode) (marked : Bool) :
    sinceTag (log ++ .tag word target marked :: rest) =
      sinceTag rest := by
  simp [sinceTag, Entry.extend]

variable (splitter)

/--
After the log, what is held is the longest end of the text since the last
delimiter which may still grow into a delimiter of the mode, and it contains
no complete one.
-/
structure Standing
    (log : List (Entry Symbol Mode)) (state : Mode × List Symbol) :
    Prop where
  absent : splitter.leave state.1 state.2 = none
  held :
    HeldTail (splitter.words state.1) (sinceTag log ++ state.2) state.2

variable {splitter}

/-- A text without a complete delimiter has none at its end. -/
theorem leave_suffix_none
    {mode : Mode} {text tail : List Symbol}
    (absent : splitter.leave mode text = none)
    (suffix : tail <:+ text) :
    splitter.leave mode tail = none := by
  obtain ⟨front, rfl⟩ := suffix
  refine (earliest_eq_none_iff Prod.fst).mpr ?_
  intro exit member
  refine (find_eq_none_iff _ _).mpr ?_
  intro offset bound occurs
  have whole := earliest_none Prod.fst absent exit member
  refine (find_eq_none_iff _ _).mp whole (front.length + offset)
    (by rw [List.length_append]; omega) ?_
  rw [← List.drop_drop, List.drop_left]
  exact occurs

/-- Draining either crosses nothing or forgets the text before it. -/
theorem Drains.sinceTag_cases
    {mode final : Mode} {text rest : List Symbol}
    {log : List (Entry Symbol Mode)}
    (drains : splitter.Drains mode text log final rest) :
    (log = [] ∧ final = mode ∧ rest = text) ∨
      ∀ before, sinceTag (before ++ log) = [] := by
  induction drains with
  | done => exact Or.inl ⟨rfl, rfl, rfl⟩
  | cross left tail induction =>
      right
      intro before
      rw [← List.append_assoc, sinceTag_append_tag]
      rcases induction with ⟨rfl, -, -⟩ | forgets
      · rfl
      · exact forgets []

/-- Reading a chunk keeps the hold-back invariant. -/
theorem Feeds.standing
    {start final : Mode × List Symbol} {chunk : List Symbol}
    {before log : List (Entry Symbol Mode)}
    (feeds : splitter.Feeds start chunk log final)
    (standing : splitter.Standing before start) :
    splitter.Standing (before ++ log) final := by
  cases feeds with
  | empty => simpa using standing
  | @chunk mode final held chunk rest log nonempty drains =>
      have tail := hold_heldTail (splitter.words final) rest
      refine ⟨leave_suffix_none drains.absent tail.suffix, ?_⟩
      rw [← List.append_assoc, sinceTag_append_pieceOf,
        List.append_assoc, release_append_hold]
      rcases drains.sinceTag_cases with ⟨rfl, rfl, rfl⟩ | forgets
      · have joined := standing.held.append tail
        simpa using joined
      · rw [forgets before]
        simpa using tail

/-- The hold-back invariant holds after every list of chunks. -/
theorem FeedsAll.standing
    {start final : Mode × List Symbol} {chunks : List (List Symbol)}
    {before log : List (Entry Symbol Mode)}
    (feeds : splitter.FeedsAll start chunks log final)
    (standing : splitter.Standing before start) :
    splitter.Standing (before ++ log) final := by
  induction feeds generalizing before with
  | nil => simpa using standing
  | cons head _ induction =>
      rw [← List.append_assoc]
      exact induction (head.standing standing)

/-- Nothing is held before any text has been read. -/
theorem standing_start
    (splitter : Splitter Symbol Mode) (mode : Mode) :
    splitter.Standing [] (mode, []) := by
  refine ⟨?_, List.suffix_rfl, Or.inl rfl, ?_⟩
  · refine (earliest_eq_none_iff Prod.fst).mpr ?_
    intro exit member
    have nonempty := (splitter.guarded mode exit member).ne_nil
    simp [find, nonempty]
  · intro tail isPartial suffix
    have empty : tail = [] := List.suffix_nil.mp suffix
    exact (isPartial.1 empty).elim

/-! ## Output by kind of mode -/

section Gather

variable {Kind : Type w} [DecidableEq Kind] (kind : Mode → Kind)

/-- The text of one kind in an entry. -/
def Entry.ofKind (wanted : Kind) : Entry Symbol Mode → List Symbol
  | .piece mode text => if kind mode = wanted then text else []
  | .tag _ _ _ => []

/-- The text of one kind in a log. -/
def gather (wanted : Kind) (log : List (Entry Symbol Mode)) :
    List Symbol :=
  log.flatMap (Entry.ofKind kind wanted)

omit [DecidableEq Symbol] in
@[simp]
theorem gather_nil (wanted : Kind) :
    gather kind wanted ([] : List (Entry Symbol Mode)) = [] := rfl

omit [DecidableEq Symbol] in
@[simp]
theorem gather_append
    (wanted : Kind) (left right : List (Entry Symbol Mode)) :
    gather kind wanted (left ++ right) =
      gather kind wanted left ++ gather kind wanted right := by
  simp [gather]

omit [DecidableEq Symbol] in
@[simp]
theorem gather_tag
    (wanted : Kind) (word : List Symbol) (target : Mode) (marked : Bool)
    (log : List (Entry Symbol Mode)) :
    gather kind wanted (.tag word target marked :: log) =
      gather kind wanted log := by
  simp [gather, Entry.ofKind]

omit [DecidableEq Symbol] in
theorem gather_pieceOf
    (wanted : Kind) (mode : Mode) (text : List Symbol) :
    gather kind wanted (pieceOf mode text) =
      if kind mode = wanted then text else [] := by
  by_cases empty : text = []
  · simp [pieceOf, empty]
  · simp [pieceOf, empty, gather, Entry.ofKind]

omit [DecidableEq Symbol] in
/-- Passing a text on in two pieces or in one gives the same output. -/
theorem gather_pieceOf_append
    (wanted : Kind) (mode : Mode) (left right : List Symbol) :
    gather kind wanted (pieceOf mode (left ++ right)) =
      gather kind wanted (pieceOf mode left) ++
        gather kind wanted (pieceOf mode right) := by
  simp only [gather_pieceOf]
  split <;> simp

/-- The whole output of a run that ends with held text, once flushed. -/
def output
    (log : List (Entry Symbol Mode)) (state : Mode × List Symbol)
    (wanted : Kind) : List Symbol :=
  gather kind wanted (log ++ pieceOf state.1 state.2)

/-- Holding back changes when text is passed on, not what is passed on. -/
theorem Feeds.output_chunk
    {mode final : Mode} {held chunk rest : List Symbol}
    {log feedLog : List (Entry Symbol Mode)}
    {state : Mode × List Symbol}
    (nonempty : chunk ≠ [])
    (drains : splitter.Drains mode (held ++ chunk) log final rest)
    (feeds : splitter.Feeds (mode, held) chunk feedLog state) :
    output kind feedLog state = output kind log (final, rest) := by
  obtain ⟨rfl, rfl⟩ := feeds.unique (.chunk nonempty drains)
  funext wanted
  simp only [output, gather_append, List.append_assoc]
  rw [← gather_pieceOf_append, release_append_hold]

/-! ## When the chunks cannot be told from the output -/

variable (splitter)

/-- In a text read from `mode`, some delimiter has the marker behind it. -/
inductive Marked : Mode → List Symbol → Prop where
  | here {mode target : Mode} {text word : List Symbol} {offset : Nat}
      (left : splitter.leave mode text = some (offset, (word, target)))
      (marked : splitter.marker <+: text.drop (offset + word.length)) :
      Marked mode text
  | later {mode target : Mode} {text word : List Symbol} {offset : Nat}
      (left : splitter.leave mode text = some (offset, (word, target)))
      (tail : Marked target (text.drop (offset + word.length))) :
      Marked mode text

variable {splitter}

/-- Text in front which no delimiter can start in only shifts `leave`. -/
theorem leave_shift
    {mode : Mode} {front back : List Symbol}
    (shift :
      ∀ exit ∈ splitter.exits mode,
        find exit.1 (front ++ back) =
          (find exit.1 back).map (· + front.length)) :
    splitter.leave mode (front ++ back) =
      (splitter.leave mode back).map
        fun best => (best.1 + front.length, best.2) := by
  cases left : splitter.leave mode back with
  | none =>
      refine (earliest_eq_none_iff Prod.fst).mpr ?_
      intro exit member
      rw [shift exit member, earliest_none Prod.fst left exit member]
      rfl
  | some best =>
      obtain ⟨offset, exit⟩ := best
      obtain ⟨member, found, least⟩ := leave_some left
      refine leave_eq_some member ?_ ?_
      · rw [shift exit member, found]
        rfl
      · intro other otherMember otherOffset otherFound
        rw [shift other otherMember, Option.map_eq_some_iff] at otherFound
        obtain ⟨inner, innerFound, rfl⟩ := otherFound
        have := least other otherMember inner innerFound
        change offset + front.length ≤ _
        omega

omit [DecidableEq Symbol] in
/-- Offsets behind a shifted delimiter. -/
theorem drop_shift
    (front back : List Symbol) (offset length : Nat) :
    (front ++ back).drop (offset + front.length + length) =
      back.drop (offset + length) := by
  have offsets :
      offset + front.length + length =
        front.length + (offset + length) := by
    omega
  rw [offsets, ← List.drop_drop, List.drop_left]

/-- Text in front which no delimiter can start in is passed on unchanged. -/
theorem Drains.shift
    {mode final : Mode} {front back rest : List Symbol}
    {log : List (Entry Symbol Mode)}
    (shift :
      ∀ exit ∈ splitter.exits mode,
        find exit.1 (front ++ back) =
          (find exit.1 back).map (· + front.length))
    (drains : splitter.Drains mode back log final rest) :
    ∃ log' rest',
      splitter.Drains mode (front ++ back) log' final rest' ∧
        output kind log' (final, rest') =
          output kind (pieceOf mode front ++ log) (final, rest) := by
  have shifted := leave_shift shift
  cases drains with
  | done absent =>
      rw [absent] at shifted
      refine ⟨[], front ++ back, .done shifted, ?_⟩
      funext wanted
      simp only [output, List.append_nil, List.nil_append, gather_append]
      exact gather_pieceOf_append kind wanted mode front back
  | @cross _ target _ _ word _ offset log left tail =>
      rw [left] at shifted
      rw [← drop_shift front] at tail
      refine ⟨_, rest, .cross shifted tail, ?_⟩
      have takeEq :
          (front ++ back).take (offset + front.length) =
            front ++ back.take offset := by
        rw [List.take_append, List.take_of_length_le (by omega)]
        congr 2
        omega
      funext wanted
      simp only [output, gather_append, gather_tag]
      rw [takeEq, gather_pieceOf_append]
      simp only [List.append_assoc]

theorem Marked.shift
    {mode : Mode} {front back : List Symbol}
    (shift :
      ∀ exit ∈ splitter.exits mode,
        find exit.1 (front ++ back) =
          (find exit.1 back).map (· + front.length))
    (marked : splitter.Marked mode back) :
    splitter.Marked mode (front ++ back) := by
  have shifted := leave_shift shift
  cases marked with
  | here left here =>
      rw [left] at shifted
      rw [← drop_shift front] at here
      exact .here shifted here
  | later left tail =>
      rw [left] at shifted
      rw [← drop_shift front] at tail
      exact .later shifted tail

/-- The shift condition behind a held text. -/
theorem find_shift_hold
    {mode : Mode} {rest : List Symbol}
    (absent : splitter.leave mode rest = none) (more : List Symbol) :
    ∀ exit ∈ splitter.exits mode,
      find exit.1
          (release (splitter.words mode) rest ++
            (hold (splitter.words mode) rest ++ more)) =
        (find exit.1 (hold (splitter.words mode) rest ++ more)).map
          (· + (release (splitter.words mode) rest).length) := by
  intro exit member
  have joined := release_append_hold (splitter.words mode) rest
  apply @find_append_hold _ _ (splitter.words mode)
  · rw [joined]
    exact hold_heldTail _ rest
  · exact List.mem_map_of_mem member
  · rw [joined]
    exact earliest_none Prod.fst absent exit member

/--
Draining a text and then draining what is left of it together with more text
is draining all of it, as long as no delimiter has the marker behind it.
-/
theorem Drains.append
    {mode middle final : Mode} {text rest rest' more : List Symbol}
    {log log' : List (Entry Symbol Mode)}
    (unmarked : ¬ splitter.Marked mode (text ++ more))
    (first : splitter.Drains mode text log middle rest)
    (second : splitter.Drains middle (rest ++ more) log' final rest') :
    splitter.Drains mode (text ++ more) (log ++ log') final rest' := by
  induction first with
  | done => simpa using second
  | @cross mode target middle text word rest offset log left _ induction =>
      have bound : offset + word.length ≤ text.length := leave_bound left
      have left' := leave_append_some left more
      have dropEq :
          (text ++ more).drop (offset + word.length) =
            text.drop (offset + word.length) ++ more :=
        List.drop_append_of_le_length bound
      have apart :
          ¬ splitter.marker <+: text.drop (offset + word.length) ++ more := by
        intro marked
        exact unmarked (.here left' (by rw [dropEq]; exact marked))
      have apartFront :
          ¬ splitter.marker <+: text.drop (offset + word.length) :=
        fun marked => apart (marked.trans (List.prefix_append _ _))
      rw [strip_of_unmarked apartFront] at induction
      have tail :=
        induction
          (fun marked => unmarked (.later left' (by rw [dropEq]; exact marked)))
          second
      have takeEq : (text ++ more).take offset = text.take offset :=
        List.take_append_of_le_length (by omega)
      have whole :
          splitter.Drains mode (text ++ more) _ final rest' :=
        .cross left' (by
          rw [dropEq, strip_of_unmarked apart]
          exact tail)
      have flagEq :
          splitter.marker.isPrefixOf
              (text.drop (offset + word.length) ++ more) =
            splitter.marker.isPrefixOf
              (text.drop (offset + word.length)) := by
        rw [Bool.eq_iff_iff, List.isPrefixOf_iff_prefix,
          List.isPrefixOf_iff_prefix]
        exact iff_of_false apart apartFront
      rw [takeEq, dropEq, flagEq] at whole
      simpa using whole

/-- What is left of an unmarked text stays unmarked. -/
theorem Drains.unmarked
    {mode final : Mode} {text rest more : List Symbol}
    {log : List (Entry Symbol Mode)}
    (drains : splitter.Drains mode text log final rest)
    (unmarked : ¬ splitter.Marked mode (text ++ more)) :
    ¬ splitter.Marked final (rest ++ more) := by
  induction drains with
  | done => exact unmarked
  | @cross mode target final text word rest offset log left _ induction =>
      have bound : offset + word.length ≤ text.length := leave_bound left
      have left' := leave_append_some left more
      have dropEq :
          (text ++ more).drop (offset + word.length) =
            text.drop (offset + word.length) ++ more :=
        List.drop_append_of_le_length bound
      apply induction
      by_cases marked :
          splitter.marker <+: text.drop (offset + word.length)
      · refine (unmarked (.here left' ?_)).elim
        rw [dropEq]
        exact marked.trans (List.prefix_append _ _)
      · rw [strip_of_unmarked marked]
        intro inner
        exact unmarked (.later left' (by rw [dropEq]; exact inner))

/-- On an unmarked text, every list of chunks gives the undivided output. -/
theorem FeedsAll.output_unmarked
    {start final : Mode × List Symbol} {chunks : List (List Symbol)}
    {log : List (Entry Symbol Mode)}
    (feeds : splitter.FeedsAll start chunks log final)
    (absent : splitter.leave start.1 start.2 = none)
    (unmarked :
      ¬ splitter.Marked start.1 (start.2 ++ chunks.flatten)) :
    ∃ whole last rest,
      splitter.Drains start.1 (start.2 ++ chunks.flatten)
          whole last rest ∧
        output kind log final = output kind whole (last, rest) := by
  induction feeds with
  | nil state =>
      refine ⟨[], state.1, state.2, ?_, rfl⟩
      simpa using Drains.done absent
  | @cons start middle final chunk chunks log logs head _ induction =>
      cases head with
      | empty => simpa using induction absent (by simpa using unmarked)
      | @chunk mode last held chunk rest log nonempty drains =>
          have flat :
              held ++ (chunk :: chunks).flatten =
                (held ++ chunk) ++ chunks.flatten := by
            simp
          rw [flat] at unmarked
          have restUnmarked := drains.unmarked unmarked
          have joined := release_append_hold (splitter.words last) rest
          have shift :=
            find_shift_hold drains.absent chunks.flatten
          have heldAbsent :
              splitter.leave last (hold (splitter.words last) rest) =
                none :=
            leave_suffix_none drains.absent
              (hold_heldTail (splitter.words last) rest).suffix
          have heldUnmarked :
              ¬ splitter.Marked last
                (hold (splitter.words last) rest ++ chunks.flatten) := by
            intro marked
            have shifted := marked.shift shift
            rw [← List.append_assoc, joined] at shifted
            exact restUnmarked shifted
          obtain ⟨whole, finalMode, finalRest, tail, outputs⟩ :=
            induction heldAbsent heldUnmarked
          obtain ⟨shiftedLog, shiftedRest, shiftedTail, shiftedOutput⟩ :=
            tail.shift kind shift
          rw [← List.append_assoc, joined] at shiftedTail
          refine ⟨log ++ shiftedLog, finalMode, shiftedRest, ?_, ?_⟩
          · change splitter.Drains mode (held ++ _) _ _ _
            rw [flat]
            exact drains.append unmarked shiftedTail
          · funext wanted
            have here := congrFun outputs wanted
            have there := congrFun shiftedOutput wanted
            simp only [output, gather_append, List.append_assoc]
              at here there ⊢
            rw [here, there]

/-- A crossing in front of a run which starts with nothing held. -/
theorem FeedsAll.prepend
    {mode target : Mode} {text word first : List Symbol} {offset : Nat}
    {chunks : List (List Symbol)} {final : Mode × List Symbol}
    {log : List (Entry Symbol Mode)}
    (left : splitter.leave mode text = some (offset, (word, target)))
    (apart : ¬ splitter.marker <+: first)
    (feeds : splitter.FeedsAll (target, []) (first :: chunks) log final) :
    splitter.FeedsAll (mode, [])
      ((text.take offset ++ word ++ first) :: chunks)
      (pieceOf mode (text.take offset) ++ .tag word target false :: log)
      final := by
  have bound : offset + word.length ≤ text.length := leave_bound left
  have frontLength : (text.take offset).length = offset := by
    rw [List.length_take]
    omega
  have left' :
      splitter.leave mode (text.take offset ++ word ++ first) =
        some (offset, (word, target)) :=
    leave_append_some (leave_take left) first
  have dropEq :
      (text.take offset ++ word ++ first).drop (offset + word.length) =
        first :=
    List.drop_left' (by rw [List.length_append, frontLength])
  have takeEq :
      (text.take offset ++ word ++ first).take offset =
        text.take offset := by
    rw [List.append_assoc]
    exact List.take_left' frontLength
  have flagEq : splitter.marker.isPrefixOf first = false := by
    rw [Bool.eq_false_iff, Ne, List.isPrefixOf_iff_prefix]
    exact apart
  have wordNonempty : word ≠ [] :=
    (splitter.guarded mode _ (leave_some left).1).ne_nil
  have nonempty : text.take offset ++ word ++ first ≠ [] := by
    simp [wordNonempty]
  have crossing :
      ∀ {log : List (Entry Symbol Mode)} {last : Mode}
        {rest : List Symbol},
        splitter.Drains target first log last rest →
          splitter.Drains mode ([] ++ (text.take offset ++ word ++ first))
            (pieceOf mode (text.take offset) ++
              .tag word target false :: log)
            last rest := by
    intro log last rest drains
    have cross :
        splitter.Drains mode (text.take offset ++ word ++ first) _
          last rest :=
      .cross left' (by
        rw [dropEq, strip_of_unmarked apart]
        exact drains)
    rw [takeEq, dropEq, flagEq] at cross
    exact cross
  cases feeds with
  | @cons _ middle _ _ _ headLog logs head tail =>
      cases head with
      | empty =>
          have absent := (standing_start splitter target).absent
          have whole :=
            FeedsAll.cons (.chunk nonempty (crossing (.done absent)))
              (by simpa [hold] using tail)
          simpa [release, pieceOf] using whole
      | chunk _ drains =>
          have whole :=
            FeedsAll.cons (.chunk nonempty (crossing drains)) tail
          simpa using whole

omit [DecidableEq Symbol] in
/-- A common crossing in front cancels out of two outputs. -/
theorem output_prepend_cancel
    {mode target : Mode} {front word : List Symbol}
    {marked marked' : Bool}
    {log log' : List (Entry Symbol Mode)}
    {final final' : Mode × List Symbol}
    (equal :
      output kind
          (pieceOf mode front ++ .tag word target marked :: log) final =
        output kind
          (pieceOf mode front ++ .tag word target marked' :: log')
          final') :
    output kind log final = output kind log' final' := by
  funext wanted
  have here := congrFun equal wanted
  simp only [output, gather_append, gather_tag, List.append_assoc]
    at here ⊢
  exact List.append_cancel_left here

/-- No delimiter starts in the marker, whatever stands behind it. -/
theorem find_shift_marker
    {mode : Mode} (more : List Symbol) :
    ∀ exit ∈ splitter.exits mode,
      find exit.1 (splitter.marker ++ more) =
        (find exit.1 more).map (· + splitter.marker.length) := by
  intro exit member
  apply find_append_of_absent
  intro offset smaller occurs
  rcases Nat.eq_zero_or_pos offset with rfl | positive
  · rw [List.drop_zero] at occurs
    rcases List.prefix_or_prefix_of_prefix occurs
        (List.prefix_append splitter.marker more) with shorter | longer
    · exact (splitter.markerApart mode exit member).1 shorter
    · exact (splitter.markerApart mode exit member).2 longer
  · exact splitter.markerGuarded.not_prefix_drop
      (splitter.guarded mode exit member) positive smaller occurs

/-- Reading a text as one chunk from nothing held gives its whole output. -/
theorem feedsAll_single
    {mode final : Mode} {text rest : List Symbol}
    {log : List (Entry Symbol Mode)}
    (nonempty : text ≠ [])
    (drains : splitter.Drains mode text log final rest) :
    ∃ feedLog state,
      splitter.FeedsAll (mode, []) [text] feedLog state ∧
        output kind feedLog state = output kind log (final, rest) := by
  obtain ⟨feedLog, state, feeds⟩ :=
    feeds_exists splitter (mode, []) text
  refine ⟨feedLog ++ [], state, .cons feeds (.nil state), ?_⟩
  rw [List.append_nil]
  exact Feeds.output_chunk kind nonempty (by simpa using drains) feeds

/--
Where a delimiter has the marker behind it, cutting the text between the two
changes the output: the marker arrives too late to be swallowed.
-/
theorem distinguishes_here
    {mode target : Mode} {text word : List Symbol} {offset : Nat}
    (left : splitter.leave mode text = some (offset, (word, target)))
    (marked : splitter.marker <+: text.drop (offset + word.length)) :
    ∃ front back log final log' final',
      front ++ back = text ∧
        splitter.FeedsAll (mode, []) [text] log final ∧
        splitter.FeedsAll (mode, []) [front, back] log' final' ∧
        output kind log final ≠ output kind log' final' := by
  obtain ⟨behind, behindEq⟩ := marked
  have wordNonempty : word ≠ [] :=
    (splitter.guarded mode _ (leave_some left).1).ne_nil
  have markerNonempty := splitter.markerGuarded.ne_nil
  have split : text.take offset ++ word ++ (splitter.marker ++ behind) =
      text := by
    rw [behindEq]
    exact leave_split left
  have textNonempty : text ≠ [] := by
    rw [← split]
    simp [wordNonempty]
  obtain ⟨tailLog, final, rest, tail⟩ :=
    drains_exists splitter target behind
  have whole :
      splitter.Drains mode text
        (pieceOf mode (text.take offset) ++
          .tag word target true :: tailLog) final rest := by
    have crossed : splitter.Drains mode text _ final rest :=
      .cross left (by
        rw [← behindEq, strip_of_marked (List.prefix_append _ _),
          List.drop_left]
        exact tail)
    have flagEq :
        splitter.marker.isPrefixOf
          (text.drop (offset + word.length)) = true := by
      rw [List.isPrefixOf_iff_prefix, ← behindEq]
      exact List.prefix_append _ _
    rw [flagEq] at crossed
    exact crossed
  obtain ⟨log, state, feeds, outputs⟩ :=
    feedsAll_single kind textNonempty whole
  obtain ⟨lateLog, lateRest, lateDrains, lateOutput⟩ :=
    tail.shift kind (find_shift_marker behind)
  have lateNonempty : splitter.marker ++ behind ≠ [] := by
    simp [markerNonempty]
  obtain ⟨late, lateState, lateFeeds, lateOutputs⟩ :=
    feedsAll_single kind lateNonempty lateDrains
  have apart : ¬ splitter.marker <+: ([] : List Symbol) := by
    rw [List.prefix_nil]
    exact markerNonempty
  have cut :=
    FeedsAll.prepend left apart (.cons (.empty _) lateFeeds)
  rw [List.append_nil] at cut
  refine
    ⟨text.take offset ++ word, splitter.marker ++ behind,
      log, state, _, lateState, split, feeds, cut, ?_⟩
  intro equal
  rw [outputs, List.nil_append] at equal
  have cancelled := output_prepend_cancel kind equal
  rw [lateOutputs, lateOutput] at cancelled
  have here := congrFun cancelled (kind target)
  have lengths := congrArg List.length here
  simp only [output, gather_append, List.length_append,
    gather_pieceOf, if_true] at lengths
  have positive := List.length_pos_of_ne_nil markerNonempty
  omega

theorem Marked.distinguishes
    {mode : Mode} {text : List Symbol}
    (marked : splitter.Marked mode text) :
    ∃ front back log final log' final',
      front ++ back = text ∧
        splitter.FeedsAll (mode, []) [text] log final ∧
        splitter.FeedsAll (mode, []) [front, back] log' final' ∧
        output kind log final ≠ output kind log' final' := by
  induction marked with
  | here left marked => exact distinguishes_here kind left marked
  | @later mode target text word offset left _ induction =>
      obtain ⟨front, back, log, final, log', final', joined, feeds, feeds',
        differ⟩ := induction
      by_cases marked :
          splitter.marker <+: text.drop (offset + word.length)
      · exact distinguishes_here kind left marked
      · have split := leave_split left
        have apart : ¬ splitter.marker <+: front := by
          intro early
          apply marked
          rw [← joined]
          exact early.trans (List.prefix_append _ _)
        have whole := FeedsAll.prepend left marked feeds
        have cut := FeedsAll.prepend left apart feeds'
        rw [split] at whole
        refine
          ⟨text.take offset ++ word ++ front, back, _, final, _, final',
            ?_, whole, cut, ?_⟩
        · rw [List.append_assoc, joined]
          exact split
        · intro equal
          exact differ (output_prepend_cancel kind equal)

/--
The output of a text does not depend on how it is cut into chunks exactly
when no delimiter of the text has the marker behind it.
-/
theorem chunkIndependent_iff (mode : Mode) (text : List Symbol) :
    (∀ left right log final log' final',
        left.flatten = text → right.flatten = text →
          splitter.FeedsAll (mode, []) left log final →
            splitter.FeedsAll (mode, []) right log' final' →
              output kind log final = output kind log' final') ↔
      ¬ splitter.Marked mode text := by
  constructor
  · intro independent marked
    obtain ⟨front, back, log, final, log', final', joined, feeds, feeds',
      differ⟩ := marked.distinguishes kind
    exact differ
      (independent [text] [front, back] log final log' final'
        (by simp) (by simpa using joined) feeds feeds')
  · intro unmarked left right log final log' final' leftText rightText
      feeds feeds'
    have absent := (standing_start splitter mode).absent
    obtain ⟨whole, last, rest, drains, outputs⟩ :=
      feeds.output_unmarked kind absent (by simpa [leftText] using unmarked)
    obtain ⟨whole', last', rest', drains', outputs'⟩ :=
      feeds'.output_unmarked kind absent
        (by simpa [rightText] using unmarked)
    rw [leftText] at drains
    rw [rightText] at drains'
    obtain ⟨rfl, rfl, rfl⟩ := drains.unique drains'
    rw [outputs, outputs']

end Gather

end Splitter

end Runa.Stream
